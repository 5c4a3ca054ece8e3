import EliteHubVault.Delivery.Deployment
import EliteHubVault.Sse.SteadyKeys

/-!
# No publication is missed

A connection whose subscriptions are settled gets everything that is published from then on, as
long as it is open and Redis keeps its connection: each publication that it asks for has arrived
or is under way, whatever the other clients, the worker and the relay do
(`no_publication_is_missed`). Its channels stay subscribed because its keys are steady.
-/

set_option autoImplicit false
set_option linter.unusedSectionVars false

namespace EliteHubVault

open Library

/-! ## Connections that still ask for the same -/

namespace SseConnection

/-- The connection asks for what it asked for, and is not opened again. -/
structure StillAsks (before after : SseConnection) : Prop where
  eventType : after.eventType = before.eventType
  routingKeys : after.routingKeys = before.routingKeys
  systemIdAllowlist : after.systemIdAllowlist = before.systemIdAllowlist
  closed : before.isClosed = true → after.isClosed = true

namespace StillAsks

variable {before middle after : SseConnection}

theorem refl (connection : SseConnection) : connection.StillAsks connection :=
  ⟨rfl, rfl, rfl, id⟩

theorem trans (first : before.StillAsks middle) (second : middle.StillAsks after) :
    before.StillAsks after where
  eventType := second.eventType.trans first.eventType
  routingKeys := second.routingKeys.trans first.routingKeys
  systemIdAllowlist := second.systemIdAllowlist.trans first.systemIdAllowlist
  closed closed := second.closed (first.closed closed)

theorem offer (frame : String) (connection : SseConnection) :
    connection.StillAsks (connection.offer frame) := by
  unfold SseConnection.offer
  dsimp only
  split
  · exact ⟨rfl, rfl, rfl, fun _ => rfl⟩
  · have traffic := traffic_push frame
      { connection with nextEventId := connection.nextEventId + 1 }
    exact ⟨traffic.eventType, traffic.routingKeys, traffic.systemIdAllowlist,
      fun closed => traffic.isClosed.trans closed⟩

theorem of_quiet {K : Type} {codec : JsonCodec K} (quiet : before.Quiet codec after) :
    before.StillAsks after :=
  ⟨quiet.eventType, quiet.routingKeys, quiet.systemIdAllowlist, quiet.closed⟩

/-- An open connection was open. -/
theorem isOpen (asks : before.StillAsks after) (isOpen : after.isClosed = false) :
    before.isClosed = false := by
  cases closed : before.isClosed with
  | false => rfl
  | true => exact absurd ((asks.closed closed).symm.trans isOpen) Bool.noConfusion

end StillAsks

variable {K : Type}

@[simp] theorem wanted_append (connection : SseConnection)
    (publications later : List (Publication K)) :
    connection.wanted (publications ++ later) =
      connection.wanted publications ++ connection.wanted later := by
  rw [wanted, List.map_append, List.filter_append]
  rfl

/-- Publications that are left out because the client does not want them. -/
theorem wanted_filter {connection : SseConnection} {kept : Publication K → Prop}
    [DecidablePred kept] {publications : List (Publication K)}
    (all : ∀ publication ∈ publications, connection.Wants publication.target.payload →
      kept publication) :
    connection.wanted (publications.filter fun publication => kept publication) =
      connection.wanted publications := by
  rw [wanted, wanted, List.filter_map, List.filter_map, List.filter_filter]
  refine congrArg _ (List.filter_congr fun publication member => ?_)
  rw [Function.comp_apply, Bool.and_eq_left_iff_imp]
  intro wants
  exact decide_eq_true (all publication member (of_decide_eq_true wants))

/-- Only the wanted publications are heard. -/
theorem Hears.congr {codec : JsonCodec K} {publications others : List (Publication K)}
    {connection : SseConnection} (hears : connection.Hears codec publications)
    (same : connection.wanted publications = connection.wanted others) :
    connection.Hears codec others := by
  obtain ⟨frames, accepted, first, isOpen⟩ := hears
  rw [same] at first isOpen
  exact ⟨frames, accepted, first, isOpen⟩

end SseConnection

variable {K : Type} [Field K] [LinearOrder K] {P : Platform K} {codec : JsonCodec K}

namespace Deployment

variable {settled deployment deployment' : Deployment P} {connectionId : ConnectionId}
  {asked connection : SseConnection}

/-! ## One step -/

/-- Redis keeps its connection. -/
def StaysConnected (_ : Deployment P) (action : DeploymentAction K) : Prop :=
  action ≠ .broker (.redis .close)

/-- The connection to Redis is lost. -/
def closesRedis : DeploymentAction K → Bool
  | .broker (.redis .close) => true
  | _ => false

instance (deployment : Deployment P) (action : DeploymentAction K) :
    Decidable (deployment.StaysConnected action) :=
  decidable_of_iff (closesRedis action = false) (by
    constructor
    · rintro stays rfl
      cases stays
    · intro stays
      unfold closesRedis
      split
      · exact absurd rfl stays
      · rfl)

/-- A known connection stays known, and asks for the same. -/
theorem known_next (delivers : deployment.Delivers codec) {action : DeploymentAction K}
    (known : deployment.broker.connections.get connectionId = some connection)
    (taken : deployment.next codec action = some deployment') :
    deployment'.heardBefore connectionId = deployment.heardBefore connectionId ∧
      ∃ connection', deployment'.broker.connections.get connectionId = some connection' ∧
        connection.StillAsks connection' := by
  cases action with
  | site action =>
      obtain ⟨site, -, rfl⟩ := Option.map_eq_some_iff.mp taken
      exact ⟨rfl, connection, known, .refl connection⟩
  | deliver =>
      unfold next at taken
      dsimp only at taken
      split at taken
      · cases taken
      · rename_i publication rest arriving
        cases taken
        have addressed := delivers.addressed (delivers.published arriving)
        refine ⟨rfl, ?_⟩
        simp only [get_onMessage delivers.disposed.wired addressed, known, Option.map_some,
          Option.some.injEq, exists_eq_left']
        split
        · exact .offer _ connection
        · exact .refl connection
  | broker action =>
      obtain ⟨broker, silent, stepped, rfl⟩ := exists_broker_of_next taken
      by_cases registering : ∃ now input, action = .registerConnection now input
      · obtain ⟨now, input, rfl⟩ := registering
        cases stepped
        have different : connectionId ≠ ⟨now, deployment.broker.nextConnectionId⟩ := by
          rintro rfl
          rw [delivers.disposed.wired.get_eq_none now] at known
          cases known
        refine ⟨Function.update_of_ne different _ _, connection, ?_, .refl connection⟩
        dsimp only
        rw [SseBroker.get_registerConnection, if_neg different, known]
      · have registered : ∀ now input, action ≠ .registerConnection now input :=
          fun now input isRegister => registering ⟨now, input, isRegister⟩
        refine ⟨?_, ?_⟩
        · dsimp only
          unfold registeredAfter
          split
          · exact absurd rfl (registered _ _)
          · rfl
        · obtain ⟨connection', known', quiet⟩ :=
            (SseBroker.quiet_next stepped silent registered).present connectionId connection known
          exact ⟨connection', known', .of_quiet quiet⟩

/-- What has arrived stays so. -/
theorem heard_next {action : DeploymentAction K}
    (taken : deployment.next codec action = some deployment') :
    deployment.heard <+: deployment'.heard := by
  cases action with
  | site action =>
      obtain ⟨site, -, rfl⟩ := Option.map_eq_some_iff.mp taken
      exact List.prefix_rfl
  | deliver =>
      unfold next at taken
      dsimp only at taken
      split at taken
      · cases taken
      · cases taken
        exact List.prefix_append _ _
  | broker action =>
      obtain ⟨broker, -, -, rfl⟩ := exists_broker_of_next taken
      exact List.prefix_rfl

/-- What a step does to the broker is nothing, or a step of the broker. -/
theorem broker_of_next {action : DeploymentAction K}
    (taken : deployment.next codec action = some deployment') :
    deployment'.broker = deployment.broker ∨ ∃ brokerAction,
      deployment.broker.next codec brokerAction = some deployment'.broker ∧
        (action ≠ .broker (.redis .close) → brokerAction ≠ .redis .close) := by
  cases action with
  | site action =>
      obtain ⟨site, -, rfl⟩ := Option.map_eq_some_iff.mp taken
      exact .inl rfl
  | deliver =>
      unfold next at taken
      dsimp only at taken
      split at taken
      · cases taken
      · rename_i publication rest arriving
        cases taken
        exact .inr ⟨.message publication.target.channel
          (codec.stringify publication.target.payload.toJson), rfl,
          fun _ impossible => SseBroker.Action.noConfusion impossible⟩
  | broker action =>
      obtain ⟨broker, -, stepped, rfl⟩ := exists_broker_of_next taken
      exact .inr ⟨action, stepped, fun stays closing => stays (closing ▸ rfl)⟩

/-- The broker of a deployment lives through a run of the broker. -/
theorem reachable_broker {db : Db P} {clock : Timestamp} {isUp : Bool}
    (run : Reachable (next codec) (start db clock isUp) deployment) :
    Reachable (SseBroker.next codec) (.start isUp) deployment.broker := by
  refine run.simulate Deployment.broker fun deployment action deployment' _ taken => ?_
  obtain same | ⟨brokerAction, stepped, -⟩ := broker_of_next taken
  · rw [same]
    exact .start
  · exact Reaches.start.step trivial stepped

/-- A publication that the client asks for is sent when the keys of its connection are steady. -/
theorem isSent_of_wants {broker : SseBroker}
    (steady : ∀ routingKey ∈ asked.routingKeys, broker.SteadyKey asked.eventType routingKey)
    {publication : Publication K} (addressed : publication.target.IsAddressed)
    (wants : asked.Wants publication.target.payload) : IsSent broker publication := by
  obtain ⟨eventType, -, member, -⟩ := wants
  have channel : publication.target.channel =
      asked.eventType.getChannel publication.target.payload.routingKey := by
    rw [eventType]
    exact addressed
  rw [IsSent, channel]
  exact (steady _ member).subscribed

/-! ## Runs -/

/-- **What holds of a connection since it was settled**, while it is open: its keys are steady,
and each publication that it asked for has arrived or is under way. -/
structure Complete (codec : JsonCodec K) (settled : Deployment P) (connectionId : ConnectionId)
    (asked : SseConnection) (deployment : Deployment P) : Prop where
  delivers : deployment.Delivers codec
  accounted : deployment.broker.Accounted
  registered : deployment.heardBefore connectionId = settled.heardBefore connectionId
  before : settled.heardBefore connectionId ≤ settled.heard.length
  grown : settled.site.relay.published <+: deployment.site.relay.published
  arrived : settled.heard <+: deployment.heard
  known : ∃ connection, deployment.broker.connections.get connectionId = some connection ∧
    asked.StillAsks connection ∧ (connection.isClosed = false →
      (∀ routingKey ∈ asked.routingKeys,
        deployment.broker.SteadyKey asked.eventType routingKey) ∧
      asked.wanted (deployment.heard ++ deployment.inFlight) =
        asked.wanted (settled.heard ++ settled.inFlight) ++ asked.wanted
          (deployment.site.relay.published.drop settled.site.relay.published.length))

namespace Complete

/-- The keys stay steady over a step after which the connection is open. -/
theorem steady_next {action : DeploymentAction K} (accounted : deployment.broker.Accounted)
    (stays : action ≠ .broker (.redis .close))
    (taken : deployment.next codec action = some deployment') {connection' : SseConnection}
    (known : deployment.broker.connections.get connectionId = some connection)
    (known' : deployment'.broker.connections.get connectionId = some connection')
    (asks : asked.StillAsks connection) (asks' : connection.StillAsks connection')
    (isOpen : connection'.isClosed = false)
    (steady : ∀ routingKey ∈ asked.routingKeys,
      deployment.broker.SteadyKey asked.eventType routingKey) :
    ∀ routingKey ∈ asked.routingKeys,
      deployment'.broker.SteadyKey asked.eventType routingKey := by
  intro routingKey member
  obtain same | ⟨brokerAction, stepped, remains⟩ := broker_of_next taken
  · rw [same]
    exact steady routingKey member
  · have usedBefore := SseBroker.openCount_pos known (asks'.isOpen isOpen)
      (asks.routingKeys ▸ member)
    have used := SseBroker.openCount_pos known' isOpen
      ((asks.trans asks').routingKeys ▸ member)
    rw [asks.eventType] at usedBefore
    rw [(asks.trans asks').eventType] at used
    exact (steady routingKey member).next accounted (remains stays) stepped used usedBefore

/-- What is published in a step is under way after it, if the client asks for it and its keys
are steady. -/
theorem wanted_next (asked : SseConnection) (delivers : deployment.Delivers codec)
    {action : DeploymentAction K} (stays : action ≠ .broker (.redis .close))
    (taken : deployment.next codec action = some deployment') :
    ∃ inserted, deployment'.site.relay.published = deployment.site.relay.published ++ inserted ∧
      ((∀ routingKey ∈ asked.routingKeys,
          deployment.broker.SteadyKey asked.eventType routingKey) →
        asked.wanted (deployment'.heard ++ deployment'.inFlight) =
          asked.wanted (deployment.heard ++ deployment.inFlight) ++ asked.wanted inserted) := by
  cases action with
  | site action =>
      have delivers' := delivers.site taken
      obtain ⟨site, stepped, rfl⟩ := Option.map_eq_some_iff.mp taken
      obtain ⟨inserted, grown⟩ : ∃ inserted,
          site.relay.published = deployment.site.relay.published ++ inserted := by
        obtain same | ⟨publication, grown⟩ := Site.published_of_next stepped
        · exact ⟨[], by rw [same, List.append_nil]⟩
        · exact ⟨[publication], grown⟩
      refine ⟨inserted, grown, fun steady => ?_⟩
      dsimp only
      rw [grown, List.drop_left, ← List.append_assoc, SseConnection.wanted_append,
        SseConnection.wanted_filter]
      intro publication member wants
      refine isSent_of_wants steady (delivers'.addressed ?_) wants
      show publication ∈ site.relay.published
      rw [grown]
      exact List.mem_append_right _ member
  | deliver =>
      unfold next at taken
      dsimp only at taken
      split at taken
      · cases taken
      · rename_i publication rest arriving
        cases taken
        refine ⟨[], (List.append_nil _).symm, fun _ => ?_⟩
        dsimp only
        rw [arriving, List.append_assoc, List.singleton_append]
        exact (List.append_nil _).symm
  | broker action =>
      obtain ⟨broker, -, -, rfl⟩ := exists_broker_of_next taken
      have kept : keptInFlight deployment.inFlight action = deployment.inFlight := by
        unfold keptInFlight
        split
        · exact absurd rfl stays
        · rfl
      refine ⟨[], (List.append_nil _).symm, fun _ => ?_⟩
      dsimp only
      rw [kept]
      exact (List.append_nil _).symm

theorem step (complete : Complete codec settled connectionId asked deployment)
    {action : DeploymentAction K} (stays : deployment.StaysConnected action)
    (taken : deployment.next codec action = some deployment') :
    Complete codec settled connectionId asked deployment' := by
  obtain ⟨delivers, accounted, registered, before, grown, arrived, connection, known, asks,
    isOpen⟩ := complete
  obtain ⟨sameStart, connection', known', asks'⟩ := known_next delivers known taken
  have accounted' : deployment'.broker.Accounted := by
    obtain same | ⟨brokerAction, stepped, -⟩ := broker_of_next taken
    · rw [same]
      exact accounted
    · exact accounted.next stepped
  obtain ⟨inserted, longer, arrives⟩ := wanted_next asked delivers stays taken
  refine ⟨delivers.step taken, accounted', sameStart.trans registered, before, ?_,
    arrived.trans (heard_next taken), connection', known', asks.trans asks', fun isOpen' => ?_⟩
  · rw [longer]
    exact grown.trans (List.prefix_append _ _)
  · obtain ⟨steady, equation⟩ := isOpen (asks'.isOpen isOpen')
    refine ⟨steady_next accounted stays taken known known' asks asks' isOpen' steady, ?_⟩
    rw [arrives steady, equation, longer, List.drop_append_of_le_length grown.length_le,
      asked.wanted_append (List.drop _ _), List.append_assoc]

theorem start (delivers : settled.Delivers codec) (accounted : settled.broker.Accounted)
    (sound : ∀ routingKey, (settled.broker.redisSubscriptions.view asked.eventType
      routingKey).Sound)
    (settles : settled.broker.SettledConnection connectionId asked) :
    Complete codec settled connectionId asked settled where
  delivers := delivers
  accounted := accounted
  registered := rfl
  before := delivers.before connectionId
  grown := List.prefix_rfl
  arrived := List.prefix_rfl
  known := by
    refine ⟨asked, settles.known, .refl asked, fun _ => ⟨fun routingKey member => ?_, ?_⟩⟩
    · exact settles.steady accounted (sound routingKey) member
    · rw [List.drop_length]
      exact (List.append_nil _).symm

end Complete

theorem complete_of_reaches {db : Db P} {clock : Timestamp} {isUp : Bool}
    (earlier : Reachable (next codec) (.start db clock isUp) settled)
    (settles : settled.broker.SettledConnection connectionId asked)
    (run : Reaches (next codec) StaysConnected settled deployment) :
    Complete codec settled connectionId asked deployment := by
  have running := reachable_broker earlier
  have begins : Complete codec settled connectionId asked settled :=
    .start (delivers_of_reaches earlier) (SseBroker.accounted_of_reachable running) (fun _ =>
      RedisSubscriptionManager.sound_view (SseBroker.reachable_manager running)) settles
  exact run.invariant begins fun _ _ _ complete stays taken => complete.step stays taken

/-- Once nothing is under way, an open connection has accepted all that it asked for. -/
theorem Complete.hears (complete : Complete codec settled connectionId asked deployment)
    (known : deployment.broker.connections.get connectionId = some connection)
    (isOpen : connection.isClosed = false) (quiet : deployment.inFlight = []) :
    connection.Hears codec
      ((settled.heard ++ settled.inFlight).drop (settled.heardBefore connectionId) ++
        deployment.site.relay.published.drop settled.site.relay.published.length) := by
  obtain ⟨connection', known', asks, told⟩ := complete.known
  obtain rfl := Option.some.inj (known'.symm.trans known)
  obtain ⟨-, equation⟩ := told isOpen
  have hears := complete.delivers.hears connectionId connection' known
  rw [complete.registered] at hears
  refine hears.congr ?_
  have same : ∀ publications : List (Publication K),
      connection'.wanted publications = asked.wanted publications := fun publications =>
    SseConnection.wanted_congr asks.eventType asks.routingKeys asks.systemIdAllowlist
  obtain ⟨later, arrived⟩ := complete.arrived
  have before : settled.heardBefore connectionId ≤ settled.heard.length := complete.before
  rw [quiet, List.append_nil, ← arrived] at equation
  rw [same, same, ← arrived, List.drop_append_of_le_length before,
    List.drop_append_of_le_length before]
  simp only [SseConnection.wanted_append, List.append_assoc, List.append_cancel_left_eq]
    at equation ⊢
  exact equation

/-- **No publication is missed.** From a state in which the subscriptions of a connection are
settled, in every run of the worker, the relay, Redis and the API in which Redis keeps its
connection: as long as the connection is open, each publication that it asks for has arrived or
is under way, in order; and once nothing is under way, the connection has accepted all of them. -/
theorem no_publication_is_missed {db : Db P} {clock : Timestamp} {isUp : Bool}
    (earlier : Reachable (next codec) (.start db clock isUp) settled)
    (settles : settled.broker.SettledConnection connectionId asked)
    (run : Reaches (next codec) StaysConnected settled deployment)
    (known : deployment.broker.connections.get connectionId = some connection)
    (isOpen : connection.isClosed = false) :
    asked.wanted (deployment.heard ++ deployment.inFlight) =
        asked.wanted (settled.heard ++ settled.inFlight) ++ asked.wanted
          (deployment.site.relay.published.drop settled.site.relay.published.length) ∧
      (deployment.inFlight = [] → connection.Hears codec
        ((settled.heard ++ settled.inFlight).drop (settled.heardBefore connectionId) ++
          deployment.site.relay.published.drop settled.site.relay.published.length)) := by
  have complete := complete_of_reaches earlier settles run
  refine ⟨?_, complete.hears known isOpen⟩
  obtain ⟨connection', known', -, told⟩ := complete.known
  obtain rfl := Option.some.inj (known'.symm.trans known)
  exact (told isOpen).2

end Deployment

/-! ## Samples -/

/-- Another client of the faction comes, the event of the worker arrives, and the other client
leaves. -/
def sampleNeighbor : List (DeploymentAction ℚ) :=
  let demandKey := getDemandKey .factionPresenceChanged sampleFactionId.toText
  [.broker (.registerConnection 1 sampleClient), .broker (.redis (.runNext demandKey)),
    .site (.begin 0 (.fsdJump (sampleMessage (some "A") [sampleFaction "A" (1 / 2)]))),
    .site (.commit 0 (sampleEnv 1)), .site (.relay (.fetchBatch 0 [0])),
    .site (.relay (.prepareRow 0)), .site (.relay (.publish 0)),
    .broker (.cleanupConnection ⟨1, 2⟩ .clientDisconnect), .broker (.redis (.runNext demandKey)),
    .deliver]

/-- The first client is settled, and the event reaches it. -/
theorem no_publication_is_missed_sample :
    ∃ (settled deployment : Deployment asciiPlatform) (connection : SseConnection),
      settled.site.relay.published = [] ∧ deployment.site.relay.published.length = 1 ∧
        connection.Hears rationalJsonCodec
          ((settled.heard ++ settled.inFlight).drop (settled.heardBefore ⟨0, 1⟩) ++
            deployment.site.relay.published.drop settled.site.relay.published.length) := by
  obtain ⟨settled, earlier, observed⟩ := exists_reachable_of_execute
    (Deployment.next rationalJsonCodec) (Deployment.start (Db.empty : Db asciiPlatform) 1 true)
    (sampleDelivery.take 4)
    (fun settled : Deployment asciiPlatform =>
      decide (settled.broker.redisSubscriptions.subscriber.isUp = true ∧
        settled.site.relay.published.length = 0) &&
      (settled.broker.connections.get ⟨0, 1⟩).any fun asked : SseConnection =>
        decide (asked.isClosed = false ∧ ∀ routingKey ∈ asked.routingKeys,
          (settled.broker.redisSubscriptions.subscriptionOpByDemandKey.get
            (getDemandKey asked.eventType routingKey)).isNone ∧
          asked.eventType.getChannel routingKey ∉
            settled.broker.redisSubscriptions.subscriber.failedSubscribes) &&
        (execute (Deployment.next rationalJsonCodec) settled sampleNeighbor).any
          fun deployment : Deployment asciiPlatform =>
            decide (deployment.inFlight.length = 0 ∧ deployment.site.relay.published.length = 1) &&
            (deployment.broker.connections.get ⟨0, 1⟩).any fun connection : SseConnection =>
              connection.isClosed = false)
    (by decide +kernel)
  obtain ⟨begins, observed⟩ := Bool.and_eq_true_iff.mp observed
  obtain ⟨isUp, none⟩ := of_decide_eq_true begins
  obtain ⟨asked, stored, observed⟩ := (Option.any_eq_true _ _).mp observed
  obtain ⟨settles, observed⟩ := Bool.and_eq_true_iff.mp observed
  obtain ⟨wasOpen, keys⟩ := of_decide_eq_true settles
  obtain ⟨deployment, ran, observed⟩ := (Option.any_eq_true _ _).mp observed
  obtain ⟨ends, observed⟩ := Bool.and_eq_true_iff.mp observed
  obtain ⟨arrived, published⟩ := of_decide_eq_true ends
  obtain ⟨connection, known, isOpen⟩ := (Option.any_eq_true _ _).mp observed
  refine ⟨settled, deployment, connection, List.length_eq_zero_iff.mp none, published,
    (Deployment.no_publication_is_missed earlier
      ⟨stored, wasOpen, isUp, fun routingKey member => ?_, fun routingKey member =>
        (keys routingKey member).2⟩
      (.of_execute ?_ ran) known (of_decide_eq_true isOpen)).2 (List.length_eq_zero_iff.mp arrived)⟩
  · exact Option.isNone_iff_eq_none.mp (keys routingKey member).1
  · simp [sampleNeighbor, Deployment.StaysConnected]

end EliteHubVault
