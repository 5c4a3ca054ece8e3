import EliteHubVault.Sse.SseBroker

/-!
# Who is wired to which channel

Whatever the broker does beyond a registration is a sequence of touches: it changes the traffic
of a connection, cleans a connection up, or keeps its books. `Touch` says once what these can do
to the connections, and every function of the broker is a sequence of touches, so that an
invariant is proved for a touch and for a registration only.

`Wired` is the invariant: the ids in the map are those of the open connections, and the index
has under each channel key exactly the open connections with that key.
-/

set_option autoImplicit false

namespace EliteHubVault

open Library

/-! ## Channel keys -/

/-- A channel key is the text of a demand key. -/
theorem getChannelKey_inj {eventType other : RealtimeEventType} {routingKey otherKey : String} :
    getChannelKey eventType.text routingKey = getChannelKey other.text otherKey ↔
      eventType = other ∧ routingKey = otherKey := by
  rw [← getDemandKey_inj, getDemandKey, getDemandKey, DemandKey.mk.injEq]
  rfl

theorem SseConnection.mem_channelKeys {eventType : RealtimeEventType} {routingKey : String}
    {connection : SseConnection} :
    getChannelKey eventType.text routingKey ∈ connection.channelKeys ↔
      connection.eventType = eventType ∧ routingKey ∈ connection.routingKeys := by
  constructor
  · intro listed
    obtain ⟨otherKey, member, same⟩ := List.mem_map.mp listed
    obtain ⟨rfl, rfl⟩ := getChannelKey_inj.mp same
    exact ⟨rfl, member⟩
  · rintro ⟨rfl, member⟩
    exact List.mem_map_of_mem member

/-! ## Traffic -/

namespace SseConnection

/-- The second connection differs from the first in its traffic only. -/
structure Traffic (before after : SseConnection) : Prop where
  eventType : after.eventType = before.eventType
  routingKeys : after.routingKeys = before.routingKeys
  systemIdAllowlist : after.systemIdAllowlist = before.systemIdAllowlist
  isClosed : after.isClosed = before.isClosed

namespace Traffic

variable {before middle after : SseConnection}

theorem refl (connection : SseConnection) : connection.Traffic connection := ⟨rfl, rfl, rfl, rfl⟩

theorem trans (first : before.Traffic middle) (second : middle.Traffic after) :
    before.Traffic after where
  eventType := second.eventType.trans first.eventType
  routingKeys := second.routingKeys.trans first.routingKeys
  systemIdAllowlist := second.systemIdAllowlist.trans first.systemIdAllowlist
  isClosed := second.isClosed.trans first.isClosed

theorem channelKeys (traffic : before.Traffic after) : after.channelKeys = before.channelKeys := by
  rw [SseConnection.channelKeys, traffic.eventType, traffic.routingKeys]
  rfl

end Traffic

theorem traffic_writeFrame (frame : String) (connection : SseConnection) :
    connection.Traffic (connection.writeFrame frame) := by
  unfold writeFrame
  split
  · exact ⟨rfl, rfl, rfl, rfl⟩
  · exact ⟨rfl, rfl, rfl, rfl⟩

theorem traffic_flushLoop (frames : List String) (connection : SseConnection) :
    connection.Traffic (connection.flushLoop frames) := by
  induction frames with
  | nil => exact ⟨rfl, rfl, rfl, rfl⟩
  | cons frame rest ih =>
      unfold flushLoop
      split
      · exact ih
      · refine Traffic.trans ?_ (traffic_writeFrame _ _)
        exact ⟨rfl, rfl, rfl, rfl⟩

theorem traffic_push (frame : String) (connection : SseConnection) :
    connection.Traffic (connection.push frame) := by
  unfold push flushConnectionQueue
  split
  · exact ⟨rfl, rfl, rfl, rfl⟩
  · refine Traffic.trans ?_ (traffic_flushLoop _ _)
    exact ⟨rfl, rfl, rfl, rfl⟩

theorem traffic_resumeFlush (connection : SseConnection) :
    connection.Traffic connection.resumeFlush := by
  unfold resumeFlush
  split
  · exact ⟨rfl, rfl, rfl, rfl⟩
  · refine Traffic.trans ?_ (traffic_flushLoop _ _)
    exact ⟨rfl, rfl, rfl, rfl⟩

end SseConnection

namespace SseBroker

/-! ## Live and closed connections -/

/-- The connection object is known and not closed. -/
def Live (connectionId : ConnectionId) (broker : SseBroker) : Prop :=
  ∃ connection, broker.connections.get connectionId = some connection ∧
    connection.isClosed = false

/-- The connection is live and has the channel key. -/
def Has (connectionId : ConnectionId) (channelKey : String) (broker : SseBroker) : Prop :=
  ∃ connection, broker.connections.get connectionId = some connection ∧
    connection.isClosed = false ∧ channelKey ∈ connection.channelKeys

/-- The connection object is known and closed. -/
def Closed (connectionId : ConnectionId) (broker : SseBroker) : Prop :=
  ∃ connection, broker.connections.get connectionId = some connection ∧
    connection.isClosed = true

/-! ## Touches -/

/-- A step of a function of the broker other than a registration. -/
inductive Touch (broker : SseBroker) : SseBroker → Prop where
  | traffic (change : ConnectionId → SseConnection → SseConnection)
      (traffic : ∀ connectionId connection,
        SseConnection.Traffic connection (change connectionId connection)) :
      Touch broker { broker with connections := broker.connections.mapValues change }
  | update {connectionId : ConnectionId} {connection connection' : SseConnection}
      (known : broker.connections.get connectionId = some connection)
      (traffic : connection.Traffic connection') :
      Touch broker (broker.update connectionId connection')
  | cleanup {connectionId : ConnectionId} {connection : SseConnection} {reason : SseCloseReason}
      {caller : CleanupCaller}
      (found : broker.find connectionId = some connection) (isOpen : connection.isClosed = false) :
      Touch broker (broker.cleanupConnection connectionId reason caller)
  | book {registrations : OrderedMap ConnectionId RegistrationPhase}
      {cleanups : List PendingCleanup} (callbacks : List SseBrokerCallback)
      (kept : ∀ cleanup ∈ cleanups, cleanup ∈ broker.cleanups)
      (phases : ∀ connectionId phase, registrations.get connectionId = some phase →
        broker.registrations.get connectionId = some phase ∨
        ((broker.registrations.get connectionId).isSome ∧
          (phase = .returned ∨ ¬ broker.Live connectionId)) ∨
        ∃ cleanup ∈ broker.cleanups, cleanup.connectionId = connectionId)
      (awaiting : ∀ connectionId tickets,
        registrations.get connectionId = some (.awaitsDemand tickets) →
          broker.registrations.get connectionId = some (.awaitsDemand tickets)) :
      Touch broker { broker with registrations, cleanups, callbacks }

abbrev Touches : SseBroker → SseBroker → Prop := Relation.ReflTransGen Touch

variable {broker broker' : SseBroker} {connectionId : ConnectionId}

/-- An open connection of the map is known. -/
theorem find_eq_some {connection : SseConnection}
    (found : broker.find connectionId = some connection) :
    connectionId ∈ broker.connectionsById ∧ broker.connections.get connectionId = some connection :=
  Option.ite_none_right_eq_some.mp found

theorem touches_cleanupConnection (connectionId : ConnectionId) (reason : SseCloseReason)
    (caller : CleanupCaller) (broker : SseBroker) :
    Touches broker (broker.cleanupConnection connectionId reason caller) := by
  cases found : broker.find connectionId with
  | none =>
      rw [cleanupConnection, found]
  | some connection =>
      cases isOpen : connection.isClosed with
      | true =>
          rw [cleanupConnection, found]
          simp only [isOpen, if_true]
          exact .refl
      | false => exact .single (.cleanup found isOpen)

theorem registrations_cleanupConnection (connectionId : ConnectionId) (reason : SseCloseReason)
    (caller : CleanupCaller) (broker : SseBroker) :
    (broker.cleanupConnection connectionId reason caller).registrations = broker.registrations := by
  unfold cleanupConnection
  split
  · rfl
  split
  · rfl
  · rfl

theorem touches_enqueueRawFrame (connectionId : ConnectionId) (frame : String)
    (broker : SseBroker) : Touches broker (broker.enqueueRawFrame connectionId frame) := by
  unfold enqueueRawFrame
  split
  · exact .refl
  · rename_i connection found
    split
    · exact .refl
    split
    · exact touches_cleanupConnection connectionId .backpressure .other broker
    · exact .single (.update (find_eq_some found).2 (connection.traffic_push frame))

theorem registrations_enqueueRawFrame (connectionId : ConnectionId) (frame : String)
    (broker : SseBroker) :
    (broker.enqueueRawFrame connectionId frame).registrations = broker.registrations := by
  unfold enqueueRawFrame
  split
  · rfl
  split
  · rfl
  split
  · exact registrations_cleanupConnection connectionId .backpressure .other broker
  · rfl

/-- A registration that gets to a phase without demand is not one that awaits its demand. -/
theorem awaiting_of_set {registrations : OrderedMap ConnectionId RegistrationPhase}
    {phase : RegistrationPhase} (settled : ∀ tickets, phase ≠ .awaitsDemand tickets)
    {other : ConnectionId} {tickets : List Ticket}
    (awaits : (registrations.set connectionId phase).get other = some (.awaitsDemand tickets)) :
    registrations.get other = some (.awaitsDemand tickets) := by
  rw [OrderedMap.get_set] at awaits
  split at awaits
  · exact absurd (Option.some.inj awaits) (settled tickets)
  · exact awaits

theorem touches_openConnection (connectionId : ConnectionId)
    (registered : (broker.registrations.get connectionId).isSome = true) :
    Touches broker (broker.openConnection connectionId) := by
  have greeted := (touches_enqueueRawFrame connectionId "retry: 2000\n\n" broker).trans
    (touches_enqueueRawFrame connectionId ": connected\n\n" _)
  refine (greeted.tail (.traffic (fun other connection =>
    if other = connectionId then { connection with heartbeat := true } else connection)
    fun other connection => ?_)).tail (.book _ (fun _ member => member)
      (fun other phase known => ?_) fun other tickets awaits => ?_)
  · split
    · exact ⟨rfl, rfl, rfl, rfl⟩
    · exact .refl connection
  · rw [OrderedMap.get_set] at known
    split at known
    · rename_i same
      cases known
      refine .inr (.inl ⟨?_, .inl rfl⟩)
      show ((enqueueRawFrame _ _ _).registrations.get other).isSome = true
      rw [registrations_enqueueRawFrame, registrations_enqueueRawFrame, same]
      exact registered
    · exact .inl known
  · exact awaiting_of_set (fun _ => RegistrationPhase.noConfusion) awaits

theorem touches_finishCleanup {index : ℕ} (taken : broker.finishCleanup index = some broker') :
    Touches broker broker' := by
  unfold finishCleanup at taken
  split at taken
  · cases taken
  · rename_i cleanup found
    have member : cleanup ∈ broker.cleanups := List.mem_of_getElem? found
    have kept : ∀ other ∈ broker.cleanups.eraseIdx index, other ∈ broker.cleanups :=
      fun other listed => List.mem_of_mem_eraseIdx listed
    obtain ⟨-, same⟩ := Option.ite_none_right_eq_some.mp taken
    cases same
    split
    · refine .single (.book _ kept (fun other phase known => ?_) fun other tickets awaits => ?_)
      · rw [OrderedMap.get_set] at known
        split at known
        · rename_i own
          exact .inr (.inr ⟨cleanup, member, own.symm⟩)
        · exact .inl known
      · exact awaiting_of_set (fun _ => RegistrationPhase.noConfusion) awaits
    · refine .tail (.single (.book _ kept (fun _ _ known => .inl known) fun _ _ awaits => awaits))
        (.traffic _ fun other connection => ?_)
      split
      · exact ⟨rfl, rfl, rfl, rfl⟩
      · exact .refl connection
    · exact .single (.book _ kept (fun _ _ known => .inl known) fun _ _ awaits => awaits)

theorem touches_closeAllConnections (broker : SseBroker) :
    Touches broker broker.closeAllConnections := by
  unfold closeAllConnections
  generalize broker.connectionsById = connectionIds
  induction connectionIds generalizing broker with
  | nil => exact .refl
  | cons connectionId rest ih =>
      exact (touches_cleanupConnection connectionId .serverShutdown .other broker).trans (ih _)

theorem touches_settleWrite {failed : Bool}
    (taken : broker.settleWrite connectionId failed = some broker') : Touches broker broker' := by
  unfold settleWrite at taken
  split at taken
  · cases taken
  · rename_i connection known
    split at taken
    · cases taken
    · cases taken
    · cases taken
      exact .single (.update known connection.traffic_resumeFlush)
    · have rejected : Touch broker (broker.update connectionId { connection with awaits := none }) :=
        .update known ⟨rfl, rfl, rfl, rfl⟩
      dsimp only at taken
      split at taken
      · cases taken
        exact (Relation.ReflTransGen.single rejected).trans
          (touches_cleanupConnection connectionId .writeError .flush _)
      · cases taken
        refine .tail (.single rejected) (.update (OrderedMap.get_set_self _ _ _) ?_)
        exact ⟨rfl, rfl, rfl, rfl⟩

theorem touches_keepalive (taken : broker.keepalive connectionId = some broker') :
    Touches broker broker' := by
  obtain ⟨-, same⟩ := Option.ite_none_right_eq_some.mp taken
  cases same
  exact touches_enqueueRawFrame connectionId ": keepalive\n\n" broker

theorem touches_endResponse (taken : broker.endResponse connectionId = some broker') :
    Touches broker broker' := by
  obtain ⟨connection, known, rfl⟩ := Option.map_eq_some_iff.mp taken
  exact .single (.update known ⟨rfl, rfl, rfl, rfl⟩)

section Routing

variable {K : Type}

theorem touches_routeTo (spec : RealtimeEventSpec K) (channelKey : String)
    (payload : RealtimePayload K) (broker : SseBroker) (connectionId : ConnectionId) :
    Touches broker (broker.routeTo spec channelKey payload connectionId) := by
  unfold routeTo
  split
  · split
    · exact .refl
    · rename_i connection found
      split
      · exact .refl
      split
      · have consumed : Touch broker (broker.update connectionId
            { connection with nextEventId := connection.nextEventId + 1 }) :=
          .update (find_eq_some found).2 ⟨rfl, rfl, rfl, rfl⟩
        exact (Relation.ReflTransGen.single consumed).trans (touches_enqueueRawFrame _ _ _)
      · exact .refl
  · exact .refl

theorem touches_routeEvent (codec : JsonCodec K) (event : RoutedRealtimeEvent K)
    (broker : SseBroker) : Touches broker (broker.routeEvent codec event) := by
  unfold routeEvent
  dsimp only
  split
  · exact .refl
  · rename_i spec _
    generalize broker.connectionIdsByChannelKey.idsAt _ = connectionIds
    induction connectionIds generalizing broker with
    | nil => exact .refl
    | cons connectionId rest ih => exact (touches_routeTo spec _ _ broker connectionId).trans (ih _)

theorem touches_onMessage (codec : JsonCodec K) (channel message : String) (broker : SseBroker) :
    Touches broker (broker.onMessage codec channel message) := by
  unfold onMessage
  split
  · exact .refl
  split
  · exact .refl
  · exact touches_routeEvent codec _ broker

end Routing

/-! ## The maps of the broker -/

/-- The connections differ in their traffic only. -/
structure SameClients (before after : SseBroker) : Prop where
  forth : ∀ connectionId connection, before.connections.get connectionId = some connection →
    ∃ connection', after.connections.get connectionId = some connection' ∧
      connection.Traffic connection'
  back : ∀ connectionId connection', after.connections.get connectionId = some connection' →
    ∃ connection, before.connections.get connectionId = some connection ∧
      connection.Traffic connection'

namespace SameClients

variable {before after : SseBroker}

theorem of_update {connection connection' : SseConnection}
    (known : before.connections.get connectionId = some connection)
    (traffic : connection.Traffic connection') :
    SameClients before (before.update connectionId connection') where
  forth other connection₁ found := by
    by_cases same : other = connectionId
    · subst same
      cases known.symm.trans found
      exact ⟨connection', OrderedMap.get_set_self _ _ _, traffic⟩
    · exact ⟨connection₁, (OrderedMap.get_set_of_ne _ _ same).trans found, .refl connection₁⟩
  back other connection₁ found := by
    by_cases same : other = connectionId
    · subst same
      cases (OrderedMap.get_set_self _ _ _).symm.trans found
      exact ⟨connection, known, traffic⟩
    · exact ⟨connection₁, (OrderedMap.get_set_of_ne _ _ same).symm.trans found, .refl connection₁⟩

theorem of_traffic {change : ConnectionId → SseConnection → SseConnection}
    (traffic : ∀ connectionId connection,
      SseConnection.Traffic connection (change connectionId connection)) :
    SameClients before { before with connections := before.connections.mapValues change } where
  forth other connection found := by
    refine ⟨change other connection, ?_, traffic other connection⟩
    rw [OrderedMap.get_mapValues, found, Option.map_some]
  back other connection' found := by
    rw [OrderedMap.get_mapValues] at found
    obtain ⟨connection, known, rfl⟩ := Option.map_eq_some_iff.mp found
    exact ⟨connection, known, traffic other connection⟩

theorem live_iff (same : SameClients before after) (connectionId : ConnectionId) :
    after.Live connectionId ↔ before.Live connectionId := by
  constructor
  · rintro ⟨connection', found, isOpen⟩
    obtain ⟨connection, known, traffic⟩ := same.back connectionId connection' found
    exact ⟨connection, known, traffic.isClosed.symm.trans isOpen⟩
  · rintro ⟨connection, found, isOpen⟩
    obtain ⟨connection', known, traffic⟩ := same.forth connectionId connection found
    exact ⟨connection', known, traffic.isClosed.trans isOpen⟩

theorem has_iff (same : SameClients before after) (connectionId : ConnectionId)
    (channelKey : String) :
    after.Has connectionId channelKey ↔ before.Has connectionId channelKey := by
  constructor
  · rintro ⟨connection', found, isOpen, listed⟩
    obtain ⟨connection, known, traffic⟩ := same.back connectionId connection' found
    exact ⟨connection, known, traffic.isClosed.symm.trans isOpen, traffic.channelKeys ▸ listed⟩
  · rintro ⟨connection, found, isOpen, listed⟩
    obtain ⟨connection', known, traffic⟩ := same.forth connectionId connection found
    exact ⟨connection', known, traffic.isClosed.trans isOpen, traffic.channelKeys ▸ listed⟩

end SameClients

section Cleanup

variable {connection : SseConnection} {reason : SseCloseReason} {caller : CleanupCaller}

/-- What a cleanup of an open connection does. -/
theorem cleanupConnection_eq (found : broker.find connectionId = some connection)
    (isOpen : connection.isClosed = false) :
    broker.cleanupConnection connectionId reason caller =
      { broker with
        connections := broker.connections.set connectionId connection.closed
        connectionsById := broker.connectionsById.filter fun other => other ≠ connectionId
        connectionIdsByChannelKey :=
          broker.connectionIdsByChannelKey.removeIds connectionId connection.channelKeys
        cleanups := broker.cleanups ++
          [⟨connectionId, reason, broker.ticketsFor connection, caller⟩]
        redisSubscriptions := connection.routingKeys.foldl
          (fun manager routingKey => manager.decrementDemand connection.eventType routingKey)
          broker.redisSubscriptions } := by
  rw [cleanupConnection, found]
  exact if_neg (by simp [isOpen])

theorem get_cleanupConnection (found : broker.find connectionId = some connection)
    (isOpen : connection.isClosed = false) (other : ConnectionId) :
    (broker.cleanupConnection connectionId reason caller).connections.get other =
      if other = connectionId then some connection.closed else broker.connections.get other := by
  rw [cleanupConnection_eq found isOpen]
  exact OrderedMap.get_set _ _ _ _

theorem live_cleanupConnection (found : broker.find connectionId = some connection)
    (isOpen : connection.isClosed = false) (other : ConnectionId) :
    (broker.cleanupConnection connectionId reason caller).Live other ↔
      other ≠ connectionId ∧ broker.Live other := by
  unfold Live
  rw [get_cleanupConnection found isOpen]
  by_cases same : other = connectionId
  · simp [same, SseConnection.closed]
  · simp [same]

theorem has_cleanupConnection (found : broker.find connectionId = some connection)
    (isOpen : connection.isClosed = false) (other : ConnectionId) (channelKey : String) :
    (broker.cleanupConnection connectionId reason caller).Has other channelKey ↔
      other ≠ connectionId ∧ broker.Has other channelKey := by
  unfold Has
  rw [get_cleanupConnection found isOpen]
  by_cases same : other = connectionId
  · simp [same, SseConnection.closed]
  · simp [same]

end Cleanup

section Register

variable (now : ℕ) (input : RegisterConnectionInput)

theorem get_registerConnection (other : ConnectionId) :
    (broker.registerConnection now input).connections.get other =
      if other = ⟨now, broker.nextConnectionId⟩ then some (.ofInput input)
      else broker.connections.get other :=
  OrderedMap.get_set _ _ _ _

theorem live_registerConnection (other : ConnectionId) :
    (broker.registerConnection now input).Live other ↔
      other = ⟨now, broker.nextConnectionId⟩ ∨ broker.Live other := by
  unfold Live
  rw [get_registerConnection]
  by_cases same : other = ⟨now, broker.nextConnectionId⟩
  · simp [same, SseConnection.ofInput]
  · simp [same]

theorem has_registerConnection (other : ConnectionId) (channelKey : String) :
    (broker.registerConnection now input).Has other channelKey ↔
      (other = ⟨now, broker.nextConnectionId⟩ ∧
        channelKey ∈ (SseConnection.ofInput input).channelKeys) ∨
      (other ≠ ⟨now, broker.nextConnectionId⟩ ∧ broker.Has other channelKey) := by
  unfold Has
  rw [get_registerConnection]
  by_cases same : other = ⟨now, broker.nextConnectionId⟩
  · simp [same, SseConnection.ofInput]
  · simp [same]

end Register

/-- **The maps of the broker are inverse to each other.** -/
structure Wired (broker : SseBroker) : Prop where
  live : ∀ connectionId, connectionId ∈ broker.connectionsById ↔ broker.Live connectionId
  nodup : broker.connectionsById.Nodup
  indexed : broker.connectionIdsByChannelKey.Lists
    fun connectionId channelKey => broker.Has connectionId channelKey
  numbered : ∀ connectionId ∈ broker.connections.keys,
    connectionId.number < broker.nextConnectionId
  routingKeys : ∀ connectionId connection,
    broker.connections.get connectionId = some connection → connection.routingKeys.Nodup

namespace Wired

theorem start (isUp : Bool) : (SseBroker.start isUp).Wired where
  live _ := by simp [SseBroker.start, Live]
  nodup := List.nodup_nil
  indexed := OrderedMap.Lists.empty.congr fun _ _ => by simp [Has, SseBroker.start]
  numbered _ known := by cases known
  routingKeys _ _ known := by cases known

/-- Changes of traffic are invisible to the maps. -/
theorem of_sameClients (wired : broker.Wired) (same : SameClients broker broker')
    (connectionsById : broker'.connectionsById = broker.connectionsById)
    (index : broker'.connectionIdsByChannelKey = broker.connectionIdsByChannelKey)
    (nextConnectionId : broker'.nextConnectionId = broker.nextConnectionId) : broker'.Wired where
  live connectionId := by
    rw [connectionsById, same.live_iff, wired.live]
  nodup := connectionsById ▸ wired.nodup
  indexed := by
    rw [index]
    exact wired.indexed.congr fun connectionId channelKey =>
      (same.has_iff connectionId channelKey).symm
  numbered connectionId known := by
    rw [← OrderedMap.get_isSome_iff, Option.isSome_iff_exists] at known
    obtain ⟨connection', found⟩ := known
    obtain ⟨connection, before, -⟩ := same.back connectionId connection' found
    rw [nextConnectionId]
    apply wired.numbered
    rw [← OrderedMap.get_isSome_iff, before]
    rfl
  routingKeys connectionId connection' found := by
    obtain ⟨connection, before, traffic⟩ := same.back connectionId connection' found
    rw [traffic.routingKeys]
    exact wired.routingKeys connectionId connection before

/-- A cleanup takes the connection out of both maps. -/
theorem cleanup (wired : broker.Wired) {connection : SseConnection}
    (found : broker.find connectionId = some connection) (isOpen : connection.isClosed = false)
    (reason : SseCloseReason) (caller : CleanupCaller) :
    (broker.cleanupConnection connectionId reason caller).Wired where
  live other := by
    rw [live_cleanupConnection found isOpen, cleanupConnection_eq found isOpen]
    simp only [List.mem_filter, decide_eq_true_eq, wired.live]
    tauto
  nodup := by
    rw [cleanupConnection_eq found isOpen]
    exact wired.nodup.filter _
  indexed := by
    have removed := wired.indexed.removeIds connectionId connection.channelKeys
    rw [cleanupConnection_eq found isOpen]
    refine removed.congr fun other channelKey => ?_
    rw [← cleanupConnection_eq found isOpen, has_cleanupConnection found isOpen]
    by_cases same : other = connectionId
    · subst same
      have own : broker.Has other channelKey → channelKey ∈ connection.channelKeys := by
        rintro ⟨connection', known, -, listed⟩
        cases (find_eq_some found).2.symm.trans known
        exact listed
      tauto
    · tauto
  numbered other known := by
    rw [← OrderedMap.get_isSome_iff, get_cleanupConnection found isOpen] at known
    rw [cleanupConnection_eq found isOpen]
    apply wired.numbered
    rw [← OrderedMap.get_isSome_iff]
    split at known
    · rename_i same
      rw [same, (find_eq_some found).2]
      rfl
    · exact known
  routingKeys other connection' known := by
    rw [get_cleanupConnection found isOpen] at known
    split at known
    · cases known
      exact wired.routingKeys connectionId connection (find_eq_some found).2
    · exact wired.routingKeys other connection' known

/-- The number of a new connection is new. -/
theorem get_eq_none (wired : broker.Wired) (now : ℕ) :
    broker.connections.get ⟨now, broker.nextConnectionId⟩ = none := by
  rw [OrderedMap.get_eq_none_iff]
  intro known
  exact lt_irrefl _ (wired.numbered _ known)

/-- A registration enters a connection with a new id in both maps. -/
theorem register (wired : broker.Wired) (now : ℕ) (input : RegisterConnectionInput) :
    (broker.registerConnection now input).Wired where
  live other := by
    rw [live_registerConnection, ← wired.live]
    exact mem_addOnce
  nodup := nodup_addOnce wired.nodup
  indexed := by
    refine (wired.indexed.addIds ⟨now, broker.nextConnectionId⟩
      (SseConnection.ofInput input).channelKeys).congr fun other channelKey => ?_
    rw [has_registerConnection]
    by_cases same : other = ⟨now, broker.nextConnectionId⟩
    · subst same
      have fresh : ¬ broker.Has ⟨now, broker.nextConnectionId⟩ channelKey := by
        rintro ⟨connection, known, -⟩
        cases (wired.get_eq_none now).symm.trans known
      tauto
    · tauto
  numbered other known := by
    rw [← OrderedMap.get_isSome_iff, get_registerConnection] at known
    change other.number < broker.nextConnectionId + 1
    split at known
    · rename_i same
      rw [same]
      exact Nat.lt_succ_self _
    · exact Nat.lt_succ_of_lt (wired.numbered other (OrderedMap.get_isSome_iff.mp known))
  routingKeys other connection known := by
    rw [get_registerConnection] at known
    split at known
    · cases known
      exact nodup_distinct _
    · exact wired.routingKeys other connection known

theorem touch (wired : broker.Wired) (touched : Touch broker broker') : broker'.Wired := by
  cases touched with
  | traffic change traffic => exact wired.of_sameClients (.of_traffic traffic) rfl rfl rfl
  | update known traffic => exact wired.of_sameClients (.of_update known traffic) rfl rfl rfl
  | cleanup found isOpen => exact wired.cleanup found isOpen _ _
  | book callbacks kept phases =>
      exact ⟨wired.live, wired.nodup, wired.indexed, wired.numbered, wired.routingKeys⟩

theorem touches (wired : broker.Wired) (touched : Touches broker broker') : broker'.Wired := by
  induction touched with
  | refl => exact wired
  | tail _ touched ih => exact ih.touch touched

theorem redis (wired : broker.Wired) {event : RedisEvent}
    (taken : broker.redis event = some broker') : broker'.Wired := by
  obtain ⟨manager, -, rfl⟩ := Option.map_eq_some_iff.mp taken
  exact ⟨wired.live, wired.nodup, wired.indexed, wired.numbered, wired.routingKeys⟩

end Wired

/-! ## Steps -/

/-- After a cleanup the connection is not live. -/
theorem Wired.not_live_cleanupConnection (wired : broker.Wired) (reason : SseCloseReason)
    (caller : CleanupCaller) :
    ¬ (broker.cleanupConnection connectionId reason caller).Live connectionId := by
  cases found : broker.find connectionId with
  | none =>
      rw [cleanupConnection, found]
      rintro ⟨connection, known, isOpen⟩
      have member := (wired.live connectionId).mpr ⟨connection, known, isOpen⟩
      rw [find, if_pos member, known] at found
      cases found
  | some connection =>
      cases isOpen : connection.isClosed with
      | false =>
          rw [live_cleanupConnection found isOpen]
          exact fun both => both.1 rfl
      | true =>
          rw [cleanupConnection, found]
          simp only [isOpen, if_true]
          rintro ⟨other, known, notClosed⟩
          cases (find_eq_some found).2.symm.trans known
          rw [isOpen] at notClosed
          cases notClosed

theorem Wired.touches_resumeRegistration (wired : broker.Wired) {failed : Bool}
    (taken : broker.resumeRegistration connectionId failed = some broker') :
    Touches broker broker' := by
  unfold resumeRegistration at taken
  split at taken
  · rename_i tickets registered
    split at taken
    · cases taken
      refine (touches_cleanupConnection connectionId .writeError .registration broker).tail
        (.book _ (fun _ member => member) (fun other phase known => ?_)
          fun other tickets awaits => ?_)
      · rw [OrderedMap.get_set] at known
        split at known
        · rename_i same
          subst same
          refine .inr (.inl ⟨?_, .inr (wired.not_live_cleanupConnection .writeError .registration)⟩)
          rw [registrations_cleanupConnection, registered]
          rfl
        · exact .inl known
      · refine awaiting_of_set (fun tickets => ?_) awaits
        split
        · exact RegistrationPhase.noConfusion
        · exact RegistrationPhase.noConfusion
    · obtain ⟨-, same⟩ := Option.ite_none_right_eq_some.mp taken
      cases same
      exact touches_openConnection connectionId (by rw [registered]; rfl)
  · cases taken

/-- A step is a registration, a sequence of touches or an event at the manager. -/
theorem Wired.step_cases {K : Type} {codec : JsonCodec K} {action : Action} (wired : broker.Wired)
    (taken : broker.next codec action = some broker') :
    (∃ now input, action = .registerConnection now input ∧
      broker' = broker.registerConnection now input) ∨
    Touches broker broker' ∨ ∃ event, action = .redis event ∧ broker.redis event = some broker' := by
  cases action with
  | registerConnection now input =>
      cases taken
      exact .inl ⟨now, input, rfl, rfl⟩
  | resumeRegistration connectionId failed =>
      exact .inr (.inl (wired.touches_resumeRegistration taken))
  | cleanupConnection connectionId reason =>
      cases taken
      exact .inr (.inl (touches_cleanupConnection connectionId reason .other broker))
  | finishCleanup index => exact .inr (.inl (touches_finishCleanup taken))
  | closeAllConnections =>
      cases taken
      exact .inr (.inl (touches_closeAllConnections broker))
  | settleWrite connectionId failed => exact .inr (.inl (touches_settleWrite taken))
  | keepalive connectionId => exact .inr (.inl (touches_keepalive taken))
  | endResponse connectionId => exact .inr (.inl (touches_endResponse taken))
  | message channel message =>
      cases taken
      exact .inr (.inl (touches_onMessage codec channel message broker))
  | redis event => exact .inr (.inr ⟨event, rfl, taken⟩)

theorem wired_of_reachable {K : Type} {codec : JsonCodec K} {isUp : Bool}
    (reached : Reachable (next codec) (start isUp) broker) : broker.Wired := by
  refine reached.invariant (.start isUp) fun broker action broker' wired _ taken => ?_
  rcases wired.step_cases taken with ⟨now, input, -, rfl⟩ | touched | ⟨event, -, taken⟩
  · exact wired.register now input
  · exact wired.touches touched
  · exact wired.redis taken

end SseBroker

end EliteHubVault
