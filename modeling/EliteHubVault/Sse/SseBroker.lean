import EliteHubVault.Library.InvertedIndex
import EliteHubVault.Library.Runs
import EliteHubVault.Sse.RedisSubscriptionManager

/-!
# The broker of SSE connections

The broker keeps the open connections, an index from channel keys to connection ids, and the
demand at the subscription manager. `connections` has the connection objects, which a flush or
a suspended registration may hold on to after the connection is closed; `connectionsById` has
the ids that are still in the broker's map.

An `await` splits a function in two: the part up to it is one step, and what follows is another
one. A registration awaits the operations that its increments have queued at the manager, a
cleanup those of its decrements, and a flush awaits the write of one frame. `settledOps` counts
the operations of each key that have ended, so that a ticket tells whether an operation has.
-/

set_option autoImplicit false

namespace EliteHubVault

open Library

/-! ## Connections -/

def maxQueueMessages : ℕ := 200

def maxQueueBytes : ℤ := 1048576

/-- The time and the number that an id is made of. -/
structure ConnectionId where
  openedAt : ℕ
  number : ℕ
deriving DecidableEq

inductive SseCloseReason where
  | clientDisconnect | backpressure | writeError | serverShutdown | quotaExceeded
deriving DecidableEq

/-- What the broker does with a response: whether it is ended, and the frames passed to
`write`. -/
structure ServerResponse where
  writableEnded : Bool
  written : List String

def ServerResponse.ended (response : ServerResponse) : ServerResponse :=
  { response with writableEnded := true }

/-- What a flush awaits: a write, or the end of `writeFrame` on an ended response. -/
inductive PendingWrite where
  | written | skipped
deriving DecidableEq

/-- A connection. `heartbeat` tells whether its keepalive interval runs, `awaits` what its flush
awaits, and `accepted` has the frames that were ever pushed on its queue. -/
structure SseConnection where
  response : ServerResponse
  eventType : RealtimeEventType
  routingKeys : List String
  systemIdAllowlist : Option (List String)
  queue : List String
  queuedBytes : ℤ
  isFlushing : Bool
  isClosed : Bool
  heartbeat : Bool
  nextEventId : ℕ
  awaits : Option PendingWrite
  accepted : List String

structure RegisterConnectionInput where
  response : ServerResponse
  eventType : RealtimeEventType
  routingKeys : List String
  systemIds : Option (List String)

/-- A client that asks for one faction. -/
def sampleInput : RegisterConnectionInput where
  response := ⟨false, []⟩
  eventType := .factionPresenceChanged
  routingKeys := ["f1"]
  systemIds := none

def getChannelKey (eventType routingKey : String) : String := eventType ++ ":" ++ routingKey

def createSseEventFrame (eventType : String) (eventId : ℕ) (data : String) : String :=
  "id: " ++ toString eventId ++ "\nevent: " ++ eventType ++ "\ndata: " ++ data ++ "\n\n"

namespace SseConnection

def ofInput (input : RegisterConnectionInput) : SseConnection where
  response := input.response
  eventType := input.eventType
  routingKeys := distinct input.routingKeys
  systemIdAllowlist := input.systemIds.map distinct
  queue := []
  queuedBytes := 0
  isFlushing := false
  isClosed := false
  heartbeat := false
  nextEventId := 1
  awaits := none
  accepted := []

def channelKeys (connection : SseConnection) : List String :=
  connection.routingKeys.map (getChannelKey connection.eventType.text)

def demandKeys (connection : SseConnection) : List DemandKey :=
  connection.routingKeys.map (getDemandKey connection.eventType)

/-- `writeFrame`, up to its end or the write that it awaits. -/
def writeFrame (frame : String) (connection : SseConnection) : SseConnection :=
  if connection.isClosed ∨ connection.response.writableEnded then
    { connection with awaits := some .skipped }
  else
    { connection with
      awaits := some .written
      response :=
        { connection.response with written := connection.response.written ++ [frame] } }

/-- The loop of `flushConnectionQueue`, up to its end or the frame that it awaits. -/
def flushLoop : List String → SseConnection → SseConnection
  | [], connection => { connection with queue := [], isFlushing := false }
  | frame :: rest, connection =>
      if frame = "" then flushLoop rest connection
      else writeFrame frame { connection with
        queue := rest
        queuedBytes := connection.queuedBytes - frame.utf8ByteSize }

def flushConnectionQueue (connection : SseConnection) : SseConnection :=
  if connection.isClosed ∨ connection.isFlushing then connection
  else flushLoop connection.queue { connection with isFlushing := true }

/-- The queue takes no more. -/
def IsSlow (frame : String) (connection : SseConnection) : Prop :=
  maxQueueMessages < connection.queue.length + 1 ∨
    maxQueueBytes < connection.queuedBytes + frame.utf8ByteSize

instance (frame : String) (connection : SseConnection) : Decidable (connection.IsSlow frame) :=
  inferInstanceAs (Decidable (_ ∨ _))

/-- Queue a frame and see that it is flushed. -/
def push (frame : String) (connection : SseConnection) : SseConnection :=
  flushConnectionQueue { connection with
    queue := connection.queue ++ [frame]
    queuedBytes := connection.queuedBytes + frame.utf8ByteSize
    accepted := connection.accepted ++ [frame] }

/-- A flush goes on after a frame that was written. -/
def resumeFlush (connection : SseConnection) : SseConnection :=
  if connection.isClosed then { connection with awaits := none, isFlushing := false }
  else flushLoop connection.queue { connection with awaits := none }

/-- What `cleanupConnection` does to the connection. -/
def closed (connection : SseConnection) : SseConnection :=
  { connection with
    isClosed := true
    heartbeat := false
    queue := []
    queuedBytes := 0
    response := connection.response.ended }

end SseConnection

/-! ## State -/

/-- An operation of a key, by its number among all operations of the key. -/
structure Ticket where
  demandKey : DemandKey
  position : ℕ

/-- A registration awaits its increments, or the cleanup after they have failed. -/
inductive RegistrationPhase where
  | awaitsDemand (tickets : List Ticket)
  | awaitsCleanup
  | returned
  | thrown

/-- Who awaits a cleanup. -/
inductive CleanupCaller where
  | registration | flush | other
deriving DecidableEq

/-- A cleanup that awaits its decrements. -/
structure PendingCleanup where
  connectionId : ConnectionId
  reason : SseCloseReason
  tickets : List Ticket
  caller : CleanupCaller

inductive SseBrokerCallback where
  | onConnectionOpened (connectionId : ConnectionId)
  | onConnectionClosed (connectionId : ConnectionId) (reason : SseCloseReason)
deriving DecidableEq

structure SseBroker where
  redisSubscriptions : RedisSubscriptionManager
  settledOps : OrderedMap DemandKey ℕ
  connections : OrderedMap ConnectionId SseConnection
  connectionsById : List ConnectionId
  connectionIdsByChannelKey : OrderedMap String (List ConnectionId)
  nextConnectionId : ℕ
  registrations : OrderedMap ConnectionId RegistrationPhase
  cleanups : List PendingCleanup
  callbacks : List SseBrokerCallback

structure RoutedRealtimeEvent (K : Type) where
  eventType : RealtimeEventType
  routingKey : String
  payload : RealtimePayload K

namespace SseBroker

def start (isUp : Bool) : SseBroker where
  redisSubscriptions := .start isUp
  settledOps := .empty
  connections := .empty
  connectionsById := []
  connectionIdsByChannelKey := .empty
  nextConnectionId := 1
  registrations := .empty
  cleanups := []
  callbacks := []

/-- `connectionsById.get`. -/
def find (connectionId : ConnectionId) (broker : SseBroker) : Option SseConnection :=
  if connectionId ∈ broker.connectionsById then broker.connections.get connectionId else none

/-- The connection is in the broker and not closed. -/
def IsOpen (connectionId : ConnectionId) (broker : SseBroker) : Prop :=
  ((broker.find connectionId).any fun connection => !connection.isClosed) = true

instance (connectionId : ConnectionId) (broker : SseBroker) :
    Decidable (broker.IsOpen connectionId) := inferInstanceAs (Decidable (_ = true))

/-- Change a connection object in place. -/
def update (connectionId : ConnectionId) (connection : SseConnection) (broker : SseBroker) :
    SseBroker :=
  { broker with connections := broker.connections.set connectionId connection }

/-- The number of all operations of a key that were ever queued. -/
def operationsOf (demandKey : DemandKey) (broker : SseBroker) : ℕ :=
  (broker.settledOps.get demandKey).getD 0 +
    (broker.redisSubscriptions.chainOf demandKey).remaining

/-- The tickets of operations that are queued now, one for each key. -/
def ticketsFor (connection : SseConnection) (broker : SseBroker) : List Ticket :=
  connection.demandKeys.map fun demandKey =>
    { demandKey, position := broker.operationsOf demandKey }

/-- All these operations have ended. -/
def Settled (tickets : List Ticket) (broker : SseBroker) : Prop :=
  ∀ ticket ∈ tickets, ticket.position < (broker.settledOps.get ticket.demandKey).getD 0

instance (tickets : List Ticket) (broker : SseBroker) : Decidable (broker.Settled tickets) :=
  inferInstanceAs (Decidable (∀ ticket ∈ tickets, _))

/-! ## Registration and cleanup -/

/-- `registerConnection`, up to the increments that it awaits. -/
def registerConnection (now : ℕ) (input : RegisterConnectionInput) (broker : SseBroker) :
    SseBroker :=
  let connectionId : ConnectionId := ⟨now, broker.nextConnectionId⟩
  let connection := SseConnection.ofInput input
  { broker with
    nextConnectionId := broker.nextConnectionId + 1
    connections := broker.connections.set connectionId connection
    connectionsById := addOnce connectionId broker.connectionsById
    connectionIdsByChannelKey :=
      broker.connectionIdsByChannelKey.addIds connectionId connection.channelKeys
    registrations :=
      broker.registrations.set connectionId (.awaitsDemand (broker.ticketsFor connection))
    redisSubscriptions := connection.routingKeys.foldl
      (fun manager routingKey => manager.incrementDemand connection.eventType routingKey)
      broker.redisSubscriptions }

/-- `cleanupConnection`, up to the decrements that it awaits. -/
def cleanupConnection (connectionId : ConnectionId) (reason : SseCloseReason)
    (caller : CleanupCaller) (broker : SseBroker) : SseBroker :=
  match broker.find connectionId with
  | none => broker
  | some connection =>
      if connection.isClosed then broker
      else
        { broker with
          connections := broker.connections.set connectionId connection.closed
          connectionsById := broker.connectionsById.filter fun other => other ≠ connectionId
          connectionIdsByChannelKey :=
            broker.connectionIdsByChannelKey.removeIds connectionId connection.channelKeys
          cleanups := broker.cleanups ++
            [⟨connectionId, reason, broker.ticketsFor connection, caller⟩]
          redisSubscriptions := connection.routingKeys.foldl
            (fun manager routingKey => manager.decrementDemand connection.eventType routingKey)
            broker.redisSubscriptions }

def enqueueRawFrame (connectionId : ConnectionId) (frame : String) (broker : SseBroker) :
    SseBroker :=
  match broker.find connectionId with
  | none => broker
  | some connection =>
      if connection.isClosed then broker
      else if connection.IsSlow frame then
        broker.cleanupConnection connectionId .backpressure .other
      else broker.update connectionId (connection.push frame)

/-- What follows the increments of `registerConnection`. The keepalive interval and the
callback do not depend on whether the connection is still open. -/
def openConnection (connectionId : ConnectionId) (broker : SseBroker) : SseBroker :=
  let greeted := (broker.enqueueRawFrame connectionId "retry: 2000\n\n").enqueueRawFrame
    connectionId ": connected\n\n"
  { greeted with
    connections := greeted.connections.mapValues fun other connection =>
      if other = connectionId then { connection with heartbeat := true } else connection
    callbacks := greeted.callbacks ++ [.onConnectionOpened connectionId]
    registrations := greeted.registrations.set connectionId .returned }

/-- A registration goes on. It fails if an increment is rejected. -/
def resumeRegistration (connectionId : ConnectionId) (failed : Bool) (broker : SseBroker) :
    Option SseBroker :=
  match broker.registrations.get connectionId with
  | some (.awaitsDemand tickets) =>
      if failed then
        let cleaned := broker.cleanupConnection connectionId .writeError .registration
        some { cleaned with
          registrations := cleaned.registrations.set connectionId
            (if broker.IsOpen connectionId then .awaitsCleanup else .thrown) }
      else if broker.Settled tickets then some (broker.openConnection connectionId)
      else none
  | _ => none

/-- The end of a cleanup, and what its caller does next. -/
def finishCleanup (index : ℕ) (broker : SseBroker) : Option SseBroker :=
  match broker.cleanups[index]? with
  | none => none
  | some cleanup =>
      if broker.Settled cleanup.tickets then
        let finished := { broker with
          cleanups := broker.cleanups.eraseIdx index
          callbacks := broker.callbacks ++
            [.onConnectionClosed cleanup.connectionId cleanup.reason] }
        some (match cleanup.caller with
          | .registration =>
              { finished with
                registrations := finished.registrations.set cleanup.connectionId .thrown }
          | .flush =>
              { finished with
                connections := finished.connections.mapValues fun other connection =>
                  if other = cleanup.connectionId then { connection with isFlushing := false }
                  else connection }
          | .other => finished)
      else none

/-- `closeAllConnections`, up to the cleanups that it awaits. -/
def closeAllConnections (broker : SseBroker) : SseBroker :=
  broker.connectionsById.foldl
    (fun broker connectionId => broker.cleanupConnection connectionId .serverShutdown .other)
    broker

/-! ## Writes -/

/-- The write that a flush awaits ends, or fails or times out. -/
def settleWrite (connectionId : ConnectionId) (failed : Bool) (broker : SseBroker) :
    Option SseBroker :=
  match broker.connections.get connectionId with
  | none => none
  | some connection =>
      match connection.awaits, failed with
      | none, _ => none
      | some .skipped, true => none
      | some _, false => some (broker.update connectionId connection.resumeFlush)
      | some .written, true =>
          let rejected := broker.update connectionId { connection with awaits := none }
          if rejected.IsOpen connectionId then
            some (rejected.cleanupConnection connectionId .writeError .flush)
          else
            some (rejected.update connectionId
              { connection with awaits := none, isFlushing := false })

/-- A turn of the keepalive interval. -/
def keepalive (connectionId : ConnectionId) (broker : SseBroker) : Option SseBroker :=
  if (broker.connections.get connectionId).any (fun connection => connection.heartbeat) then
    some (broker.enqueueRawFrame connectionId ": keepalive\n\n")
  else none

/-- Somebody else ends the response. -/
def endResponse (connectionId : ConnectionId) (broker : SseBroker) : Option SseBroker :=
  (broker.connections.get connectionId).map fun connection =>
    broker.update connectionId { connection with response := connection.response.ended }

/-! ## Messages -/

section Routing

variable {K : Type}

/-- One turn of the loop of `routeEvent`. A connection id that was deleted from the set before
its turn is not visited. -/
def routeTo (spec : RealtimeEventSpec K) (channelKey : String) (payload : RealtimePayload K)
    (broker : SseBroker) (connectionId : ConnectionId) : SseBroker :=
  if connectionId ∈ broker.connectionIdsByChannelKey.idsAt channelKey then
    match broker.find connectionId with
    | none => broker
    | some connection =>
        if connection.isClosed then broker
        else if spec.matchesConnectionFilters ⟨connection.systemIdAllowlist⟩ payload then
          (broker.update connectionId
            { connection with nextEventId := connection.nextEventId + 1 }).enqueueRawFrame
              connectionId (createSseEventFrame spec.eventType.text connection.nextEventId
                (spec.toSseData payload))
        else broker
  else broker

def routeEvent (codec : JsonCodec K) (event : RoutedRealtimeEvent K) (broker : SseBroker) :
    SseBroker :=
  let channelKey := getChannelKey event.eventType.text event.routingKey
  match getRealtimeEventSpec codec event.eventType.text with
  | none => broker
  | some spec =>
      (broker.connectionIdsByChannelKey.idsAt channelKey).foldl
        (routeTo spec channelKey event.payload) broker

/-- A message of the Redis client. -/
def onMessage (codec : JsonCodec K) (channel message : String) (broker : SseBroker) : SseBroker :=
  match findRealtimeEventByChannel codec channel with
  | none => broker
  | some found =>
      match found.spec.parsePayload message with
      | none => broker
      | some payload => broker.routeEvent codec ⟨found.eventType, found.routingKey, payload⟩

end Routing

/-! ## Steps -/

/-- What happens at the manager other than a call of the broker. -/
inductive RedisEvent where
  | runNext (demandKey : DemandKey)
  | resolve (demandKey : DemandKey)
  | reject (demandKey : DemandKey)
  | close
  | ready

def RedisEvent.action : RedisEvent → RedisSubscriptionManager.Action
  | .runNext demandKey => .runNext demandKey
  | .resolve demandKey => .resolve demandKey
  | .reject demandKey => .reject demandKey
  | .close => .close
  | .ready => .ready

def RedisEvent.demandKey? : RedisEvent → Option DemandKey
  | .runNext demandKey | .resolve demandKey | .reject demandKey => some demandKey
  | .close | .ready => none

/-- Count the operation of a key that has ended, if it awaits nothing more. -/
def countSettled (manager : RedisSubscriptionManager) (settledOps : OrderedMap DemandKey ℕ) :
    Option DemandKey → OrderedMap DemandKey ℕ
  | none => settledOps
  | some demandKey =>
      if (manager.chainOf demandKey).running.isNone then
        settledOps.set demandKey ((settledOps.get demandKey).getD 0 + 1)
      else settledOps

def redis (event : RedisEvent) (broker : SseBroker) : Option SseBroker :=
  (broker.redisSubscriptions.next event.action).map fun manager =>
    { broker with
      redisSubscriptions := manager
      settledOps := countSettled manager broker.settledOps event.demandKey? }

inductive Action where
  | registerConnection (now : ℕ) (input : RegisterConnectionInput)
  | resumeRegistration (connectionId : ConnectionId) (failed : Bool)
  | cleanupConnection (connectionId : ConnectionId) (reason : SseCloseReason)
  | finishCleanup (index : ℕ)
  | closeAllConnections
  | settleWrite (connectionId : ConnectionId) (failed : Bool)
  | keepalive (connectionId : ConnectionId)
  | endResponse (connectionId : ConnectionId)
  | message (channel message : String)
  | redis (event : RedisEvent)

def next {K : Type} (codec : JsonCodec K) (broker : SseBroker) : Action → Option SseBroker
  | .registerConnection now input => some (broker.registerConnection now input)
  | .resumeRegistration connectionId failed => broker.resumeRegistration connectionId failed
  | .cleanupConnection connectionId reason =>
      some (broker.cleanupConnection connectionId reason .other)
  | .finishCleanup index => broker.finishCleanup index
  | .closeAllConnections => some broker.closeAllConnections
  | .settleWrite connectionId failed => broker.settleWrite connectionId failed
  | .keepalive connectionId => broker.keepalive connectionId
  | .endResponse connectionId => broker.endResponse connectionId
  | .message channel message => some (broker.onMessage codec channel message)
  | .redis event => broker.redis event

end SseBroker

end EliteHubVault
