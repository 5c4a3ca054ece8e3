import EliteHubVault.Sse.ReadBack
import EliteHubVault.Sse.Wiring

/-!
# Exact fan-out

A turn of the loop of `routeEvent` changes nothing that another connection has, even when it
closes its own connection. So the loop does to each connection of the index what its own turn
does, once, and the wiring says which connections these are.
-/

set_option autoImplicit false

namespace EliteHubVault

open Library

namespace SseConnection

/-- An event id is consumed, and the frame is pushed or the connection closed. -/
def offer (frame : String) (connection : SseConnection) : SseConnection :=
  let numbered := { connection with nextEventId := connection.nextEventId + 1 }
  if numbered.IsSlow frame then numbered.closed else numbered.push frame

/-- The connection is offered the frame once: an event id is consumed, and the frame is
accepted, or the connection is closed because it is slow. -/
def IsOffered (frame : String) (before after : SseConnection) : Prop :=
  after.nextEventId = before.nextEventId + 1 ∧
    (after.accepted = before.accepted ++ [frame] ∨
      after.accepted = before.accepted ∧ after.isClosed = true)

/-- The connection is open for events of this type and key, and its allowlist has the system. -/
def Receives {K : Type} (eventType : RealtimeEventType) (routingKey : String)
    (payload : RealtimePayload K) (connection : SseConnection) : Prop :=
  connection.isClosed = false ∧ connection.eventType = eventType ∧
    routingKey ∈ connection.routingKeys ∧
    ∀ systemIds, connection.systemIdAllowlist = some systemIds → payload.systemId ∈ systemIds

/-- A flush consumes no event id and accepts no frame. -/
theorem flushLoop_keeps (frames : List String) (connection : SseConnection) :
    (connection.flushLoop frames).nextEventId = connection.nextEventId ∧
      (connection.flushLoop frames).accepted = connection.accepted := by
  induction frames with
  | nil => exact ⟨rfl, rfl⟩
  | cons frame rest ih =>
      unfold flushLoop
      split
      · exact ih
      · unfold writeFrame
        split
        · exact ⟨rfl, rfl⟩
        · exact ⟨rfl, rfl⟩

theorem push_keeps (frame : String) (connection : SseConnection) :
    (connection.push frame).nextEventId = connection.nextEventId ∧
      (connection.push frame).accepted = connection.accepted ++ [frame] := by
  unfold push flushConnectionQueue
  split
  · exact ⟨rfl, rfl⟩
  · exact flushLoop_keeps _ _

theorem isOffered_offer (frame : String) (connection : SseConnection) :
    connection.IsOffered frame (connection.offer frame) := by
  unfold offer
  dsimp only
  split
  · exact ⟨rfl, .inr ⟨rfl, rfl⟩⟩
  · obtain ⟨consumed, accepted⟩ := push_keeps frame
      { connection with nextEventId := connection.nextEventId + 1 }
    exact ⟨consumed, .inl accepted⟩

/-- The conditions as the code checks them. -/
theorem receives_iff {K : Type} {eventType : RealtimeEventType} {routingKey : String}
    {payload : RealtimePayload K} {connection : SseConnection} :
    connection.Receives eventType routingKey payload ↔
      (connection.isClosed = false ∧
        getChannelKey eventType.text routingKey ∈ connection.channelKeys) ∧
      matchesSystemIdFilter ⟨connection.systemIdAllowlist⟩ payload = true := by
  have filter : matchesSystemIdFilter ⟨connection.systemIdAllowlist⟩ payload = true ↔
      ∀ systemIds, connection.systemIdAllowlist = some systemIds →
        payload.systemId ∈ systemIds := by
    unfold matchesSystemIdFilter
    cases connection.systemIdAllowlist <;> simp
  rw [Receives, mem_channelKeys, filter]
  tauto

instance {K : Type} (eventType : RealtimeEventType) (routingKey : String)
    (payload : RealtimePayload K) (connection : SseConnection) :
    Decidable (connection.Receives eventType routingKey payload) :=
  decidable_of_iff' _ receives_iff

end SseConnection

namespace SseBroker

variable {broker broker' : SseBroker} {connectionId other : ConnectionId}

/-! ## One turn of the loop -/

/-- What a broker has of a connection is the same. -/
structure SameFor (connectionId : ConnectionId) (before after : SseBroker) : Prop where
  get : after.connections.get connectionId = before.connections.get connectionId
  mem : connectionId ∈ after.connectionsById ↔ connectionId ∈ before.connectionsById
  indexed : ∀ channelKey, connectionId ∈ after.connectionIdsByChannelKey.idsAt channelKey ↔
    connectionId ∈ before.connectionIdsByChannelKey.idsAt channelKey

namespace SameFor

variable {before middle after : SseBroker}

theorem refl (broker : SseBroker) : SameFor connectionId broker broker :=
  ⟨rfl, .rfl, fun _ => .rfl⟩

theorem trans (first : SameFor connectionId before middle)
    (second : SameFor connectionId middle after) : SameFor connectionId before after where
  get := second.get.trans first.get
  mem := second.mem.trans first.mem
  indexed channelKey := (second.indexed channelKey).trans (first.indexed channelKey)

theorem symm (same : SameFor connectionId before after) : SameFor connectionId after before where
  get := same.get.symm
  mem := same.mem.symm
  indexed channelKey := (same.indexed channelKey).symm

theorem find (same : SameFor connectionId before after) :
    after.find connectionId = before.find connectionId := by
  unfold SseBroker.find
  rw [same.get]
  simp only [same.mem]

theorem update (different : other ≠ connectionId) (connection : SseConnection)
    (broker : SseBroker) : SameFor other broker (broker.update connectionId connection) :=
  ⟨OrderedMap.get_set_of_ne _ _ different, .rfl, fun _ => .rfl⟩

theorem cleanupConnection (different : other ≠ connectionId) (reason : SseCloseReason)
    (caller : CleanupCaller) (broker : SseBroker) :
    SameFor other broker (broker.cleanupConnection connectionId reason caller) := by
  unfold SseBroker.cleanupConnection
  split
  · exact refl broker
  split
  · exact refl broker
  · refine ⟨OrderedMap.get_set_of_ne _ _ different, ?_, fun channelKey => ?_⟩
    · simp [different]
    · rw [OrderedMap.mem_idsAt_removeIds]
      simp [different]

theorem enqueueRawFrame (different : other ≠ connectionId) (frame : String) (broker : SseBroker) :
    SameFor other broker (broker.enqueueRawFrame connectionId frame) := by
  unfold SseBroker.enqueueRawFrame
  split
  · exact refl broker
  split
  · exact refl broker
  split
  · exact cleanupConnection different .backpressure .other broker
  · exact update different _ broker

end SameFor

/-- What a connection has after a frame was enqueued for it. -/
theorem get_enqueueRawFrame_self {connection : SseConnection} {frame : String}
    (found : broker.find connectionId = some connection) (isOpen : connection.isClosed = false) :
    (broker.enqueueRawFrame connectionId frame).connections.get connectionId =
      some (if connection.IsSlow frame then connection.closed else connection.push frame) := by
  rw [enqueueRawFrame, found]
  simp only [isOpen, Bool.false_eq_true, if_false]
  split
  · rw [get_cleanupConnection found isOpen, if_pos rfl]
  · exact OrderedMap.get_set_self _ _ _

section Routing

variable {K : Type} (spec : RealtimeEventSpec K) (channelKey : String)
  (payload : RealtimePayload K)

theorem sameFor_routeTo (different : other ≠ connectionId) (broker : SseBroker) :
    SameFor other broker (broker.routeTo spec channelKey payload connectionId) := by
  unfold routeTo
  split
  · split
    · exact .refl broker
    split
    · exact .refl broker
    split
    · exact (SameFor.update different _ broker).trans (.enqueueRawFrame different _ _)
    · exact .refl broker
  · exact .refl broker

/-- What a connection has after its own turn. -/
theorem get_routeTo_self (broker : SseBroker) :
    (broker.routeTo spec channelKey payload connectionId).connections.get connectionId =
      if connectionId ∈ broker.connectionIdsByChannelKey.idsAt channelKey ∧
          broker.IsOpen connectionId then
        (broker.connections.get connectionId).map fun connection =>
          if spec.matchesConnectionFilters ⟨connection.systemIdAllowlist⟩ payload then
            connection.offer (createSseEventFrame spec.eventType.text connection.nextEventId
              (spec.toSseData payload))
          else connection
      else broker.connections.get connectionId := by
  unfold routeTo
  by_cases listed : connectionId ∈ broker.connectionIdsByChannelKey.idsAt channelKey
  · rw [if_pos listed]
    cases found : broker.find connectionId with
    | none => simp [IsOpen, found]
    | some connection =>
        cases isOpen : connection.isClosed with
        | true => simp [IsOpen, found, isOpen]
        | false =>
            obtain ⟨known, stored⟩ := find_eq_some found
            have opened : broker.IsOpen connectionId := by simp [IsOpen, found, isOpen]
            rw [if_pos ⟨listed, opened⟩, stored, Option.map_some]
            refine (congrArg (fun result : SseBroker => result.connections.get connectionId)
              (if_neg (by simp [isOpen]))).trans ?_
            split
            · refine get_enqueueRawFrame_self ?_ isOpen
              exact (if_pos known).trans (OrderedMap.get_set_self _ _ _)
            · exact stored
  · rw [if_neg listed, if_neg fun both => listed both.1]

/-- The loop does to each connection what its own turn does. -/
theorem get_foldl_routeTo {connectionIds : List ConnectionId} (nodup : connectionIds.Nodup)
    (broker : SseBroker) (connectionId : ConnectionId) :
    (connectionIds.foldl (routeTo spec channelKey payload) broker).connections.get connectionId =
      if connectionId ∈ connectionIds then
        (broker.routeTo spec channelKey payload connectionId).connections.get connectionId
      else broker.connections.get connectionId := by
  induction connectionIds generalizing broker with
  | nil => rfl
  | cons head rest ih =>
      obtain ⟨absent, nodup⟩ := List.nodup_cons.mp nodup
      rw [List.foldl_cons, ih nodup]
      by_cases own : connectionId = head
      · subst own
        rw [if_neg absent, if_pos List.mem_cons_self]
      · have same := sameFor_routeTo spec channelKey payload own broker
        have isOpen : (broker.routeTo spec channelKey payload head).IsOpen connectionId ↔
            broker.IsOpen connectionId := by
          unfold IsOpen
          rw [same.find]
        simp only [get_routeTo_self, List.mem_cons, own, false_or, same.get, same.indexed, isOpen]

end Routing

/-! ## Messages -/

/-- An id that is known in the map and in the index belongs to an open connection. -/
theorem Wired.listed_iff (wired : broker.Wired) {connection : SseConnection} (channelKey : String)
    (known : broker.connections.get connectionId = some connection) :
    connectionId ∈ broker.connectionIdsByChannelKey.idsAt channelKey ∧
        broker.IsOpen connectionId ↔
      connection.isClosed = false ∧ channelKey ∈ connection.channelKeys := by
  rw [wired.indexed.mem_iff, Has, known]
  constructor
  · rintro ⟨⟨other, same, isOpen, listed⟩, -⟩
    cases same
    exact ⟨isOpen, listed⟩
  · rintro ⟨isOpen, listed⟩
    refine ⟨⟨connection, rfl, isOpen, listed⟩, ?_⟩
    have member := (wired.live connectionId).mpr ⟨connection, known, isOpen⟩
    simp [IsOpen, find, member, known, isOpen]

section Messages

variable {K : Type} (codec : JsonCodec K) (eventType : RealtimeEventType) (routingKey : String)
  (payload : RealtimePayload K)

/-- The frame of an event for a connection. -/
def eventFrame (connection : SseConnection) : String :=
  createSseEventFrame eventType.text connection.nextEventId (codec.stringify payload.toJson)

/-- The event is offered to the connections that receive it, and to no other one. -/
theorem Wired.get_routeEvent (wired : broker.Wired) (connectionId : ConnectionId) :
    (broker.routeEvent codec ⟨eventType, routingKey, payload⟩).connections.get connectionId =
      (broker.connections.get connectionId).map fun connection =>
        if connection.Receives eventType routingKey payload then
          connection.offer (eventFrame codec eventType payload connection)
        else connection := by
  simp only [routeEvent, getRealtimeEventSpec_text]
  rw [get_foldl_routeTo _ _ _ (wired.indexed.nodup _)]
  simp only [get_routeTo_self, matchesConnectionFilters_realtimeEventSpecs,
    eventType_realtimeEventSpecs, toSseData_realtimeEventSpecs]
  cases known : broker.connections.get connectionId with
  | none => simp
  | some connection =>
      have listed := wired.listed_iff (getChannelKey eventType.text routingKey) known
      simp only [Option.map_some, SseConnection.receives_iff, eventFrame]
      by_cases wanted : connection.isClosed = false ∧
          getChannelKey eventType.text routingKey ∈ connection.channelKeys
      · have both := listed.mpr wanted
        simp only [if_pos both.1, if_pos both, wanted, true_and]
      · have neither := mt listed.mp wanted
        simp only [if_neg neither, if_neg (mt And.left wanted), ite_self]

/-- **Exact fan-out.** In every reachable state a message on the channel of a supported event
type and a nonempty routing key, with a payload that its schema accepts, is offered once to
each connection that receives it and to no other connection; every other message changes
nothing. -/
theorem offers_exactly (isUp : Bool) (reached : Reachable (next codec) (start isUp) broker)
    (channel message : String) :
    (∀ (eventType : RealtimeEventType) (routingKey : String) (payload : RealtimePayload K),
      channel = eventType.getChannel routingKey → routingKey ≠ "" →
      (realtimeEventSpecs codec eventType).parsePayload message = some payload →
      ∀ connectionId, Option.Rel
        (fun connection connection' =>
          if connection.Receives eventType routingKey payload then
            connection.IsOffered (eventFrame codec eventType payload connection) connection'
          else connection' = connection)
        (broker.connections.get connectionId)
        ((broker.onMessage codec channel message).connections.get connectionId)) ∧
    ((¬ ∃ (eventType : RealtimeEventType) (routingKey : String) (payload : RealtimePayload K),
        channel = eventType.getChannel routingKey ∧ routingKey ≠ "" ∧
        (realtimeEventSpecs codec eventType).parsePayload message = some payload) →
      broker.onMessage codec channel message = broker) := by
  have wired := wired_of_reachable reached
  constructor
  · intro eventType routingKey payload built nonempty parsed connectionId
    have found : findRealtimeEventByChannel codec channel =
        some ⟨eventType, realtimeEventSpecs codec eventType, routingKey⟩ :=
      (findRealtimeEventByChannel_eq_some_iff codec).mpr ⟨built, nonempty, rfl⟩
    simp only [onMessage, found, parsed, wired.get_routeEvent]
    cases known : broker.connections.get connectionId with
    | none => exact .none
    | some connection =>
        refine .some ?_
        by_cases receives : connection.Receives eventType routingKey payload
        · simp only [if_pos receives]
          exact SseConnection.isOffered_offer _ connection
        · simp only [if_neg receives]
  · intro unroutable
    unfold onMessage
    cases found : findRealtimeEventByChannel codec channel with
    | none => rfl
    | some decoded =>
        obtain ⟨built, nonempty, spec⟩ := (findRealtimeEventByChannel_eq_some_iff codec).mp found
        cases parsed : decoded.spec.parsePayload message with
        | none => simp only [parsed]
        | some payload =>
            exact absurd ⟨decoded.eventType, decoded.routingKey, payload, built, nonempty,
              spec ▸ parsed⟩ unroutable

end Messages

/-- A client of faction `f1` is offered the event that the faction has entered a system, and a
client of faction `f2` is not. -/
theorem offers_exactly_sample :
    ∃ (broker : SseBroker) (connection connection' other : SseConnection),
      broker.connections.get ⟨0, 1⟩ = some connection ∧
      broker.connections.get ⟨0, 2⟩ = some other ∧
      (broker.onMessage plainJsonCodec sampleTarget.channel
        (plainJsonCodec.stringify sampleTarget.payload.toJson)).connections.get ⟨0, 1⟩ =
          some connection' ∧
      (broker.onMessage plainJsonCodec sampleTarget.channel
        (plainJsonCodec.stringify sampleTarget.payload.toJson)).connections.get ⟨0, 2⟩ =
          some other ∧
      connection.IsOffered (eventFrame plainJsonCodec .factionPresenceChanged sampleTarget.payload
        connection) connection' := by
  obtain ⟨broker, reached, registered⟩ := exists_reachable_of_execute (next plainJsonCodec)
    (start true) [.registerConnection 0 sampleInput,
      .registerConnection 0 { sampleInput with routingKeys := ["f2"] }]
    (fun broker => (broker.connections.get ⟨0, 1⟩).any (fun connection =>
        connection.Receives .factionPresenceChanged "f1" sampleTarget.payload) &&
      (broker.connections.get ⟨0, 2⟩).any fun connection =>
        ¬ connection.Receives .factionPresenceChanged "f1" sampleTarget.payload)
    (by decide +kernel)
  obtain ⟨first, second⟩ := Bool.and_eq_true_iff.mp registered
  obtain ⟨connection, known, receives⟩ := (Option.any_eq_true _ _).mp first
  obtain ⟨other, known', away⟩ := (Option.any_eq_true _ _).mp second
  have offered := (offers_exactly plainJsonCodec true reached sampleTarget.channel
    (plainJsonCodec.stringify sampleTarget.payload.toJson)).1 .factionPresenceChanged "f1"
      sampleTarget.payload rfl (by decide) (parsePayload_stringify plainJsonCodec sampleTarget.payload)
  have told := offered ⟨0, 1⟩
  have untold := offered ⟨0, 2⟩
  rw [known] at told
  rw [known'] at untold
  generalize same : broker.onMessage plainJsonCodec sampleTarget.channel
    (plainJsonCodec.stringify sampleTarget.payload.toJson) = after at told untold
  cases now : after.connections.get ⟨0, 1⟩ with
  | none =>
      rw [now] at told
      cases told
  | some connection' =>
      cases still : after.connections.get ⟨0, 2⟩ with
      | none =>
          rw [still] at untold
          cases untold
      | some other' =>
          rw [now, Option.rel_some_some, if_pos (of_decide_eq_true receives)] at told
          rw [still, Option.rel_some_some, if_neg (of_decide_eq_true away)] at untold
          subst untold
          rw [← same] at now still
          exact ⟨broker, connection, connection', other', known, known', now, still, told⟩

end SseBroker

end EliteHubVault
