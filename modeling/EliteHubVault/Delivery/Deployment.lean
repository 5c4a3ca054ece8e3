import EliteHubVault.Platform.RationalText
import EliteHubVault.Relay.Provenance
import EliteHubVault.Relay.Site
import EliteHubVault.Sse.QuietSteps

/-!
# From the outbox to the clients

The worker and the relay share a database, and the relay publishes through Redis, which sends
each message to the subscriber of the API if its channel is subscribed at that time. The messages
of one connection arrive in the order in which they were published, and those that are under way
are lost with the connection.

A connection has accepted the events of the messages that arrived since it was registered and
that it asked for, each once and in order, as long as it is open; a closed connection has
accepted the first of them (`clients_hear_publications`).
-/

set_option autoImplicit false
set_option linter.unusedSectionVars false

namespace EliteHubVault

open Library

section Events

variable {K : Type}

/-! ## What a client asks for -/

namespace SseConnection

/-- The client has asked for the events of this payload. -/
def Wants (connection : SseConnection) (payload : RealtimePayload K) : Prop :=
  connection.eventType = payload.eventType ∧ payload.routingKey ≠ "" ∧
    payload.routingKey ∈ connection.routingKeys ∧
    ∀ systemIds, connection.systemIdAllowlist = some systemIds → payload.systemId ∈ systemIds

instance (connection : SseConnection) (payload : RealtimePayload K) :
    Decidable (connection.Wants payload) :=
  decidable_of_iff (connection.eventType = payload.eventType ∧ payload.routingKey ≠ "" ∧
      payload.routingKey ∈ connection.routingKeys ∧
      connection.systemIdAllowlist.all fun systemIds => decide (payload.systemId ∈ systemIds)) (by
    rw [Wants, Option.all_eq_true]
    simp only [decide_eq_true_eq])

/-- The wanted payloads among some publications, in order. -/
def wanted (connection : SseConnection) (publications : List (Publication K)) :
    List (RealtimePayload K) :=
  (publications.map fun publication => publication.target.payload).filter fun payload =>
    connection.Wants payload

/-- Events with the numbers from one on. -/
def numbered (payloads : List (RealtimePayload K)) : List (ℕ × RealtimeEventType × Json K) :=
  (payloads.zipIdx 1).map fun (payload, eventId) => (eventId, payload.eventType, payload.toJson)

theorem numbered_concat (payloads : List (RealtimePayload K)) (payload : RealtimePayload K) :
    numbered (payloads ++ [payload]) =
      numbered payloads ++ [(payloads.length + 1, payload.eventType, payload.toJson)] := by
  rw [numbered, List.zipIdx_append, List.map_append, Nat.add_comm payloads.length 1]
  rfl

theorem numbered_grows {payloads later : List (RealtimePayload K)} (first : payloads <+: later) :
    numbered payloads <+: numbered later := by
  obtain ⟨rest, rfl⟩ := first
  rw [numbered, numbered, List.zipIdx_append, List.map_append]
  exact List.prefix_append _ _

/-- **The connection has accepted the events that it asked for** among these publications, in
order; when it is closed, the first of them. -/
def Hears (codec : JsonCodec K) (publications : List (Publication K))
    (connection : SseConnection) : Prop :=
  ∃ frames : List (BrokerFrame K), connection.accepted = frames.map (BrokerFrame.text codec) ∧
    frames.filterMap BrokerFrame.event? <+: numbered (connection.wanted publications) ∧
    (connection.isClosed = false →
      frames.filterMap BrokerFrame.event? = numbered (connection.wanted publications) ∧
        connection.nextEventId = (connection.wanted publications).length + 1)

variable {codec : JsonCodec K} {publications : List (Publication K)}
  {connection connection' : SseConnection}

theorem wanted_congr (eventType : connection'.eventType = connection.eventType)
    (routingKeys : connection'.routingKeys = connection.routingKeys)
    (systemIdAllowlist : connection'.systemIdAllowlist = connection.systemIdAllowlist) :
    connection'.wanted publications = connection.wanted publications := by
  refine List.filter_congr fun payload _ => ?_
  rw [decide_eq_decide, Wants, Wants, eventType, routingKeys, systemIdAllowlist]

theorem wanted_concat (connection : SseConnection) (publications : List (Publication K))
    (publication : Publication K) : connection.wanted (publications ++ [publication]) =
      connection.wanted publications ++
        (if connection.Wants publication.target.payload then [publication.target.payload]
          else []) := by
  rw [wanted, List.map_append, List.filter_append, List.map_singleton, List.filter_singleton,
    Bool.cond_decide]
  rfl

/-- A registration has heard nothing. -/
theorem hears_ofInput (input : RegisterConnectionInput) :
    (SseConnection.ofInput input).Hears codec ([] : List (Publication K)) :=
  ⟨[], rfl, List.prefix_rfl, fun _ => ⟨rfl, rfl⟩⟩

/-- A quiet change is not heard. -/
theorem Hears.quiet (hears : connection.Hears codec publications)
    (quiet : connection.Quiet codec connection') : connection'.Hears codec publications := by
  obtain ⟨frames, accepted, first, isOpen⟩ := hears
  obtain ⟨later, plain, accepted'⟩ := quiet.accepted
  have events : (frames ++ later).filterMap BrokerFrame.event? =
      frames.filterMap BrokerFrame.event? := by
    rw [List.filterMap_append, List.filterMap_eq_nil_iff.mpr plain, List.append_nil]
  have same : connection'.wanted publications = connection.wanted publications :=
    wanted_congr quiet.eventType quiet.routingKeys quiet.systemIdAllowlist
  refine ⟨frames ++ later, ?_, ?_, fun isOpen' => ?_⟩
  · rw [accepted', accepted, List.map_append]
  · rw [events, same]
    exact first
  · have before : connection.isClosed = false := by
      cases closed : connection.isClosed with
      | false => rfl
      | true =>
          rw [quiet.closed closed] at isOpen'
          cases isOpen'
    rw [events, same, quiet.nextEventId]
    exact isOpen before

/-- A publication that the client has not asked for, or that comes too late. -/
theorem Hears.skip (hears : connection.Hears codec publications) {publication : Publication K}
    (ignored : connection.isClosed = true ∨ ¬ connection.Wants publication.target.payload) :
    connection.Hears codec (publications ++ [publication]) := by
  obtain ⟨frames, accepted, first, isOpen⟩ := hears
  refine ⟨frames, accepted, ?_, fun isOpen' => ?_⟩
  · refine first.trans (numbered_grows ?_)
    rw [wanted_concat]
    exact List.prefix_append _ _
  · have unwanted := ignored.resolve_left (by rw [isOpen']; exact Bool.false_ne_true)
    rw [wanted_concat, if_neg unwanted, List.append_nil]
    exact isOpen isOpen'

/-- A publication that the client has asked for is offered to it. -/
theorem Hears.offer (hears : connection.Hears codec publications) {publication : Publication K}
    (isOpen : connection.isClosed = false)
    (wants : connection.Wants publication.target.payload) :
    (connection.offer (SseBroker.eventFrame codec publication.target.payload.eventType
      publication.target.payload connection)).Hears codec (publications ++ [publication]) := by
  obtain ⟨frames, accepted, -, untilNow⟩ := hears
  obtain ⟨events, nextEventId⟩ := untilNow isOpen
  let counted : SseConnection := { connection with nextEventId := connection.nextEventId + 1 }
  let frame : BrokerFrame K := .event publication.target.payload.eventType
    connection.nextEventId publication.target.payload.toJson
  have longer : connection.wanted (publications ++ [publication]) =
      connection.wanted publications ++ [publication.target.payload] := by
    rw [wanted_concat, if_pos wants]
  have offered : connection.offer (SseBroker.eventFrame codec
      publication.target.payload.eventType publication.target.payload connection) =
        if counted.IsSlow (frame.text codec) then counted.closed
          else counted.push (frame.text codec) := rfl
  rw [offered]
  split
  · -- The frame is dropped, and the connection is closed.
    refine ⟨frames, accepted, ?_, fun isOpen' => ?_⟩
    · rw [events]
      refine numbered_grows ?_
      have same : counted.closed.wanted (publications ++ [publication]) =
          connection.wanted (publications ++ [publication]) := wanted_congr rfl rfl rfl
      rw [same, longer]
      exact List.prefix_append _ _
    · cases isOpen'
  · have traffic := traffic_push (frame.text codec) counted
    obtain ⟨nextEventId', accepted'⟩ := push_keeps (frame.text codec) counted
    have same : (counted.push (frame.text codec)).wanted (publications ++ [publication]) =
        connection.wanted (publications ++ [publication]) :=
      wanted_congr traffic.eventType traffic.routingKeys traffic.systemIdAllowlist
    have allEvents : (frames ++ [frame]).filterMap BrokerFrame.event? =
        numbered (connection.wanted (publications ++ [publication])) := by
      rw [List.filterMap_append, events, longer, numbered_concat, ← nextEventId]
      rfl
    refine ⟨frames ++ [frame], ?_, ?_, fun _ => ⟨?_, ?_⟩⟩
    · rw [accepted', List.map_append, ← accepted]
      rfl
    · rw [allEvents, same]
    · rw [allEvents, same]
    · rw [nextEventId', same, longer, List.length_append, List.length_singleton, ← nextEventId]

end SseConnection

end Events

variable {K : Type} [Field K] [LinearOrder K] {P : Platform K}

/-! ## The deployment -/

/-- The database with the worker and the relay, and the broker of the API. `inFlight` has what
Redis has sent to the subscriber, `heard` what has arrived, and `heardBefore` how much had
arrived when a connection was registered. -/
structure Deployment (P : Platform K) where
  site : Site P
  broker : SseBroker
  inFlight : List (Publication K)
  heard : List (Publication K)
  heardBefore : ConnectionId → ℕ

/-- A step of the worker or the relay, the arrival of the next message, or a step of the
broker. -/
inductive DeploymentAction (K : Type) where
  | site (action : SiteAction K)
  | deliver
  | broker (action : SseBroker.Action)

namespace Deployment

def start (db : Db P) (clock : Timestamp) (isUp : Bool) : Deployment P :=
  ⟨.start db clock, .start isUp, [], [], fun _ => 0⟩

/-- Redis sends the message to the subscriber. -/
def IsSent (broker : SseBroker) (publication : Publication K) : Prop :=
  publication.target.channel ∈ broker.redisSubscriptions.subscriber.connectionChannels

instance (broker : SseBroker) (publication : Publication K) :
    Decidable (IsSent broker publication) := inferInstanceAs (Decidable (_ ∈ _))

/-- What a step of the broker leaves in flight. -/
def keptInFlight (inFlight : List (Publication K)) : SseBroker.Action → List (Publication K)
  | .redis .close => []
  | _ => inFlight

/-- How much had arrived when a connection was registered, after a step of the broker. -/
def registeredAfter (deployment : Deployment P) : SseBroker.Action → ConnectionId → ℕ
  | .registerConnection now _ => Function.update deployment.heardBefore
      ⟨now, deployment.broker.nextConnectionId⟩ deployment.heard.length
  | _ => deployment.heardBefore

def next (codec : JsonCodec K) (deployment : Deployment P) :
    DeploymentAction K → Option (Deployment P)
  | .site action =>
      (deployment.site.next action).map fun site =>
        { deployment with
          site
          inFlight := deployment.inFlight ++
            (site.relay.published.drop deployment.site.relay.published.length).filter
              fun publication => IsSent deployment.broker publication }
  | .deliver =>
      match deployment.inFlight with
      | [] => none
      | publication :: rest =>
          some { deployment with
            broker := deployment.broker.onMessage codec publication.target.channel
              (codec.stringify publication.target.payload.toJson)
            inFlight := rest
            heard := deployment.heard ++ [publication] }
  -- Messages come from Redis only.
  | .broker (.message _ _) => none
  | .broker action =>
      (deployment.broker.next codec action).map fun broker =>
        { deployment with
          broker
          inFlight := keptInFlight deployment.inFlight action
          heardBefore := deployment.registeredAfter action }

variable {codec : JsonCodec K} {deployment deployment' : Deployment P}

/-- A step of the broker is no message. -/
theorem exists_broker_of_next {action : SseBroker.Action}
    (taken : deployment.next codec (.broker action) = some deployment') :
    ∃ broker, (∀ channel message, action ≠ .message channel message) ∧
      deployment.broker.next codec action = some broker ∧
      deployment' = { deployment with
        broker
        inFlight := keptInFlight deployment.inFlight action
        heardBefore := deployment.registeredAfter action } := by
  have silent : ∀ channel message, action ≠ .message channel message := by
    rintro channel message rfl
    cases taken
  have same : deployment.next codec (.broker action) =
      (deployment.broker.next codec action).map fun broker =>
        { deployment with
          broker
          inFlight := keptInFlight deployment.inFlight action
          heardBefore := deployment.registeredAfter action } := by
    unfold next
    split
    · rename_i isSite
      cases isSite
    · rename_i isDelivery
      cases isDelivery
    · rename_i isMessage
      cases isMessage
      exact absurd rfl (silent _ _)
    · rename_i isBroker
      cases isBroker
      rfl
  obtain ⟨broker, stepped, rfl⟩ := Option.map_eq_some_iff.mp (same.symm.trans taken)
  exact ⟨broker, silent, stepped, rfl⟩

/-! ## The arrival of a message -/

/-- **A message is offered to the connections that want it**, and to no other one. -/
theorem get_onMessage {broker : SseBroker} (wired : broker.Wired) {target : PublishTarget K}
    (addressed : target.IsAddressed) (connectionId : ConnectionId) :
    (broker.onMessage codec target.channel (codec.stringify target.payload.toJson)).connections.get
        connectionId = (broker.connections.get connectionId).map fun connection =>
      if connection.isClosed = false ∧ connection.Wants target.payload then
        connection.offer (SseBroker.eventFrame codec target.payload.eventType target.payload
          connection)
      else connection := by
  by_cases named : target.payload.routingKey = ""
  · -- An empty key is no channel of any type.
    have unknown : findRealtimeEventByChannel codec target.channel = none := by
      cases found : findRealtimeEventByChannel codec target.channel with
      | none => rfl
      | some decoded =>
          obtain ⟨built, nonempty, -⟩ := (findRealtimeEventByChannel_eq_some_iff codec).mp found
          have same := (RealtimeEventType.getChannel_inj.mp (built.symm.trans addressed)).2
          exact absurd (same.trans named) nonempty
    simp only [SseBroker.onMessage, unknown, SseConnection.Wants, named, ne_eq, not_true_eq_false,
      false_and, and_false, if_false, Option.map_id']
  · have found : findRealtimeEventByChannel codec target.channel =
        some ⟨target.payload.eventType, realtimeEventSpecs codec target.payload.eventType,
          target.payload.routingKey⟩ :=
      (findRealtimeEventByChannel_eq_some_iff codec).mpr ⟨addressed, named, rfl⟩
    simp only [SseBroker.onMessage, found, parsePayload_stringify, wired.get_routeEvent]
    refine congrArg (fun change => Option.map change _) (funext fun connection => ?_)
    refine if_congr ?_ rfl rfl
    rw [SseConnection.Receives, SseConnection.Wants]
    tauto

/-! ## Runs -/

/-- **What holds of a deployment.** -/
structure Delivers (codec : JsonCodec K) (deployment : Deployment P) : Prop where
  disposed : deployment.broker.Disposed
  traced : deployment.site.relay.Traced deployment.site.db.eventOutbox
  once : (deployment.heard ++ deployment.inFlight).Sublist deployment.site.relay.published
  before : ∀ connectionId, deployment.heardBefore connectionId ≤ deployment.heard.length
  hears : ∀ connectionId connection,
    deployment.broker.connections.get connectionId = some connection →
      connection.Hears codec (deployment.heard.drop (deployment.heardBefore connectionId))

namespace Delivers

theorem start (db : Db P) (clock : Timestamp) (isUp : Bool) :
    (start db clock isUp).Delivers codec where
  disposed := .start isUp
  traced := ⟨fun _ member => absurd member List.not_mem_nil,
    fun _ _ _ _ found => absurd found (Option.some_ne_none _).symm⟩
  once := .slnil
  before _ := le_rfl
  hears _ _ known := absurd known (Option.some_ne_none _).symm

/-- The relay and the worker do not touch what was heard. -/
theorem site (delivers : deployment.Delivers codec) {action : SiteAction K}
    (taken : deployment.next codec (.site action) = some deployment') :
    deployment'.Delivers codec := by
  obtain ⟨site, stepped, rfl⟩ := Option.map_eq_some_iff.mp taken
  refine ⟨delivers.disposed, Site.traced_next delivers.traced stepped, ?_, delivers.before,
    delivers.hears⟩
  dsimp only
  rw [← List.append_assoc]
  obtain same | ⟨publication, grown⟩ := Site.published_of_next stepped
  · rw [same, List.drop_length, List.filter_nil, List.append_nil]
    exact delivers.once
  · rw [grown, List.drop_left]
    exact delivers.once.append List.filter_sublist

/-- What the relay has published is addressed to its channel. -/
theorem addressed (delivers : deployment.Delivers codec) {publication : Publication K}
    (published : publication ∈ deployment.site.relay.published) :
    publication.target.IsAddressed :=
  (delivers.traced.published publication published).addressed.1

/-- The next message was published. -/
theorem published (delivers : deployment.Delivers codec) {publication : Publication K}
    {rest : List (Publication K)} (arriving : deployment.inFlight = publication :: rest) :
    publication ∈ deployment.site.relay.published := by
  refine delivers.once.subset (List.mem_append_right _ ?_)
  rw [arriving]
  exact List.mem_cons_self

theorem deliver (delivers : deployment.Delivers codec)
    (taken : deployment.next codec .deliver = some deployment') : deployment'.Delivers codec := by
  unfold Deployment.next at taken
  dsimp only at taken
  split at taken
  · cases taken
  · rename_i publication rest arriving
    cases taken
    have addressed := delivers.addressed (delivers.published arriving)
    refine ⟨?_, delivers.traced, ?_, fun connectionId => ?_, fun connectionId connection' known' => ?_⟩
    · exact delivers.disposed.touches (SseBroker.touches_onMessage codec _ _ _)
    · have once := delivers.once
      rw [arriving] at once
      simpa using once
    · exact (delivers.before connectionId).trans (by simp)
    · dsimp only at known' ⊢
      rw [get_onMessage delivers.disposed.wired addressed] at known'
      obtain ⟨connection, known, rfl⟩ := Option.map_eq_some_iff.mp known'
      have hears := delivers.hears connectionId connection known
      rw [List.drop_append_of_le_length (delivers.before connectionId)]
      split
      · rename_i wants
        exact hears.offer wants.1 wants.2
      · rename_i ignored
        refine hears.skip ?_
        rw [← Bool.not_eq_false]
        exact not_and_or.mp ignored

/-- A step of the broker loses messages at most. -/
theorem sublist_keptInFlight (inFlight : List (Publication K)) (action : SseBroker.Action) :
    (keptInFlight inFlight action).Sublist inFlight := by
  unfold keptInFlight
  split
  · exact List.nil_sublist inFlight
  · exact List.Sublist.refl inFlight

theorem broker (delivers : deployment.Delivers codec) {action : SseBroker.Action}
    (taken : deployment.next codec (.broker action) = some deployment') :
    deployment'.Delivers codec := by
  obtain ⟨broker, silent, stepped, rfl⟩ := exists_broker_of_next taken
  have once : (deployment.heard ++ keptInFlight deployment.inFlight action).Sublist
      deployment.site.relay.published :=
    ((List.Sublist.refl _).append (sublist_keptInFlight _ action)).trans delivers.once
  by_cases registering : ∃ now input, action = .registerConnection now input
  · obtain ⟨now, input, rfl⟩ := registering
    cases stepped
    have new : deployment.registeredAfter (.registerConnection now input)
        ⟨now, deployment.broker.nextConnectionId⟩ = deployment.heard.length :=
      Function.update_self ..
    have old : ∀ connectionId, connectionId ≠ ⟨now, deployment.broker.nextConnectionId⟩ →
        deployment.registeredAfter (.registerConnection now input) connectionId =
          deployment.heardBefore connectionId :=
      fun _ different => Function.update_of_ne different _ _
    refine ⟨delivers.disposed.register now input, delivers.traced, once, fun connectionId => ?_,
      fun connectionId connection known => ?_⟩
    · by_cases own : connectionId = ⟨now, deployment.broker.nextConnectionId⟩
      · subst own
        exact new.le
      · exact (old connectionId own).le.trans (delivers.before connectionId)
    · dsimp only at known ⊢
      rw [SseBroker.get_registerConnection] at known
      by_cases own : connectionId = ⟨now, deployment.broker.nextConnectionId⟩
      · subst own
        rw [if_pos rfl] at known
        obtain rfl := Option.some.inj known
        rw [new, List.drop_length]
        exact SseConnection.hears_ofInput input
      · rw [if_neg own] at known
        rw [old connectionId own]
        exact delivers.hears connectionId connection known
  · have registered : ∀ now input, action ≠ .registerConnection now input :=
      fun now input isRegister => registering ⟨now, input, isRegister⟩
    have kept : deployment.registeredAfter action = deployment.heardBefore := by
      unfold registeredAfter
      split
      · exact absurd rfl (registered _ _)
      · rfl
    have quiet := SseBroker.quiet_next stepped silent registered
    refine ⟨delivers.disposed.step stepped, delivers.traced, once, fun connectionId => ?_,
      fun connectionId connection' known' => ?_⟩
    · dsimp only
      rw [kept]
      exact delivers.before connectionId
    · dsimp only at known' ⊢
      rw [kept]
      cases known : deployment.broker.connections.get connectionId with
      | none =>
          rw [quiet.absent connectionId known] at known'
          cases known'
      | some connection =>
          obtain ⟨changed, stored, change⟩ := quiet.present connectionId connection known
          obtain rfl := Option.some.inj (stored.symm.trans known')
          exact (delivers.hears connectionId connection known).quiet change

/-- **Every step keeps it.** -/
theorem step (delivers : deployment.Delivers codec) {action : DeploymentAction K}
    (taken : deployment.next codec action = some deployment') : deployment'.Delivers codec := by
  cases action with
  | site action => exact delivers.site taken
  | deliver => exact delivers.deliver taken
  | broker action => exact delivers.broker taken

end Delivers

theorem delivers_of_reaches {guard : Deployment P → DeploymentAction K → Prop} {db : Db P}
    {clock : Timestamp} {isUp : Bool}
    (run : Reaches (next codec) guard (start db clock isUp) deployment) :
    deployment.Delivers codec :=
  run.invariant (.start db clock isUp) fun _ _ _ delivers _ taken => delivers.step taken

/-- **Clients hear what is published.** In every run of the worker, the relay, Redis and the API,
what has arrived and what is under way are publications of the relay, each once and in the order
of publication; and every connection has accepted the events that it asked for among those that
arrived since it was registered, numbered from one. -/
theorem clients_hear_publications {db : Db P} {clock : Timestamp} {isUp : Bool}
    (run : Reachable (next codec) (start db clock isUp) deployment) :
    (deployment.heard ++ deployment.inFlight).Sublist deployment.site.relay.published ∧
      ∀ connectionId connection,
        deployment.broker.connections.get connectionId = some connection →
          connection.Hears codec (deployment.heard.drop (deployment.heardBefore connectionId)) :=
  ⟨(delivers_of_reaches run).once, (delivers_of_reaches run).hears⟩

end Deployment

/-! ## Samples -/

/-- The faction of the sample messages. -/
def sampleFactionId : Uuid := .ofNat 1100

/-- A client that asks for the faction of the sample messages. -/
def sampleClient : RegisterConnectionInput :=
  { sampleInput with routingKeys := [sampleFactionId.toText] }

/-- The client connects, and is told of what the worker writes. -/
def sampleDelivery : List (DeploymentAction ℚ) :=
  let demandKey := getDemandKey .factionPresenceChanged sampleFactionId.toText
  [.broker (.registerConnection 0 sampleClient), .broker (.redis (.runNext demandKey)),
    .broker (.redis (.resolve demandKey)), .broker (.resumeRegistration ⟨0, 1⟩ false),
    .site (.begin 0 (.fsdJump (sampleMessage (some "A") [sampleFaction "A" (1 / 2)]))),
    .site (.commit 0 (sampleEnv 1)), .site (.relay (.fetchBatch 0 [0])),
    .site (.relay (.prepareRow 0)), .site (.relay (.publish 0)), .deliver]

/-- The event of the worker is accepted after the greeting. -/
theorem clients_hear_publications_sample :
    ∃ (deployment : Deployment asciiPlatform) (connection : SseConnection),
      deployment.heard.length = 1 ∧ connection.accepted.length = 3 ∧
        connection.Hears rationalJsonCodec
          (deployment.heard.drop (deployment.heardBefore ⟨0, 1⟩)) := by
  obtain ⟨deployment, reached, observed⟩ := exists_reachable_of_execute
    (Deployment.next rationalJsonCodec) (Deployment.start (Db.empty : Db asciiPlatform) 1 true)
    sampleDelivery
    (fun deployment => decide (deployment.heard.length = 1) &&
      (deployment.broker.connections.get ⟨0, 1⟩).any fun connection =>
        connection.accepted.length = 3)
    (by decide +kernel)
  obtain ⟨heard, observed⟩ := Bool.and_eq_true_iff.mp observed
  obtain ⟨connection, known, accepted⟩ := (Option.any_eq_true _ _).mp observed
  exact ⟨deployment, connection, of_decide_eq_true heard, of_decide_eq_true accepted,
    (Deployment.clients_hear_publications reached).2 ⟨0, 1⟩ connection known⟩

end EliteHubVault
