import EliteHubVault.Sse.SseBroker

/-!
# Opening an SSE connection

`openRealtimeSseConnection` acquires a lease, registers the connection with the broker and then
attaches its listeners. It awaits the lease and the registration, and the client may be gone
before either has come: 'close' fires once and reaches only the listeners that are attached by
then. A lease heartbeat runs from the registration on.

`ServiceConnection` is the closure of one call. A client that goes after the call has returned
gives its quota back. For one that goes earlier the listeners come too late: the broker may drop
the connection when a write fails, but the quota is never released and the lease is refreshed
for ever.
-/

set_option autoImplicit false

namespace EliteHubVault

open Library

/-! ## The closure of a call -/

/-- Where a call of `openRealtimeSseConnection` is. -/
inductive OpenPhase where
  | awaitsLease | refused | awaitsRegistration | returned
deriving DecidableEq

/-- The variables of a call and its client's socket. `registered` is the id that the broker has
given, `connectionId` the variable of the closure, `releases` counts how often the body of
`releaseQuota` has run, and `refreshing` the lease refreshes that are awaited. -/
structure ServiceConnection where
  input : RegisterConnectionInput
  phase : OpenPhase
  registered : Option ConnectionId
  connectionId : Option ConnectionId
  listening : Bool
  quotaReleased : Bool
  releases : ℕ
  heartbeat : Bool
  refreshing : ℕ
  socketClosed : Bool
  closeFired : Bool

/-- A step of a call: an `await` that ends, an event of the socket or of the response, or a
turn of the lease heartbeat. -/
inductive ConnectionAction where
  | decideLease (now : ℕ) (granted : Bool)
  | resume
  | disconnect
  | fireClose
  | fireError
  | heartbeat
  | refreshed (ok : Bool)

namespace ServiceConnection

def ofInput (input : RegisterConnectionInput) : ServiceConnection where
  input := input
  phase := .awaitsLease
  registered := none
  connectionId := none
  listening := false
  quotaReleased := false
  releases := 0
  heartbeat := false
  refreshing := 0
  socketClosed := false
  closeFired := false

def releaseQuota (connection : ServiceConnection) : ServiceConnection :=
  if connection.quotaReleased then connection
  else { connection with
    quotaReleased := true
    heartbeat := false
    releases := connection.releases + 1 }

/-- `cleanup`, what the listeners call. -/
def cleanup (reason : SseCloseReason) (connection : ServiceConnection) (broker : SseBroker) :
    ServiceConnection × SseBroker :=
  let released := connection.releaseQuota
  match released.connectionId with
  | none => (released, broker)
  | some toCleanup =>
      ({ released with connectionId := none }, broker.cleanupConnection toCleanup reason .other)

/-- `response.end()` unless the response is ended. -/
def endResponse (connection : ServiceConnection) (broker : SseBroker) : SseBroker :=
  (connection.registered.bind fun connectionId => broker.endResponse connectionId).getD broker

/-- The response is ended. -/
def responseEnded (connection : ServiceConnection) (broker : SseBroker) : Bool :=
  connection.registered.any fun connectionId =>
    (broker.connections.get connectionId).any fun object => object.response.writableEnded

/-- What `refreshSseLeaseOrClose` does when the lease is refreshed or not. -/
def refreshed (ok : Bool) (connection : ServiceConnection) (broker : SseBroker) :
    ServiceConnection × SseBroker :=
  if ok then (connection, broker) else (connection.releaseQuota, connection.endResponse broker)

/-- The registration has ended: the listeners are attached, or the call gives up. -/
def resume (connection : ServiceConnection) (broker : SseBroker) :
    Option (ServiceConnection × SseBroker) :=
  connection.registered.bind fun connectionId =>
    match broker.registrations.get connectionId with
    | some .returned =>
        some ({ connection with
          phase := .returned, connectionId := some connectionId, listening := true }, broker)
    | some .thrown =>
        some ({ connection.releaseQuota with phase := .returned }, connection.endResponse broker)
    | _ => none

/-- The lease is granted or not. With the lease the heartbeat starts and the connection is
registered. -/
def decideLease (now : ℕ) (granted : Bool) (connection : ServiceConnection) (broker : SseBroker) :
    ServiceConnection × SseBroker :=
  if granted then
    ({ connection with
        phase := .awaitsRegistration
        registered := some ⟨now, broker.nextConnectionId⟩
        heartbeat := true },
      broker.registerConnection now connection.input)
  else ({ connection with phase := .refused }, broker)

/-- The request and the response fire 'close' once, and the listener of each calls `cleanup`. -/
def fireClose (connection : ServiceConnection) (broker : SseBroker) :
    ServiceConnection × SseBroker :=
  let fired := { connection with closeFired := true }
  if connection.listening then
    let (connection, broker) := fired.cleanup .clientDisconnect broker
    connection.cleanup .clientDisconnect broker
  else (fired, broker)

def next (connection : ServiceConnection) (broker : SseBroker) :
    ConnectionAction → Option (ServiceConnection × SseBroker)
  | .decideLease now granted =>
      if connection.phase = .awaitsLease then some (connection.decideLease now granted broker)
      else none
  | .resume =>
      if connection.phase = .awaitsRegistration then connection.resume broker else none
  | .disconnect => some ({ connection with socketClosed := true }, broker)
  | .fireClose =>
      if connection.closeFired = false ∧
          (connection.socketClosed ∨ connection.responseEnded broker) then
        some (connection.fireClose broker)
      else none
  | .fireError => if connection.listening then some (connection.cleanup .writeError broker) else none
  | .heartbeat =>
      if connection.heartbeat then
        some ({ connection with refreshing := connection.refreshing + 1 }, broker)
      else none
  | .refreshed ok =>
      if 0 < connection.refreshing then
        some ({ connection with refreshing := connection.refreshing - 1 }.refreshed ok broker)
      else none

/-- No promise and no stream event of the connection is pending: 'close' has fired, no lease
refresh is awaited, and the broker has nothing to do for it. -/
def Quiet (connection : ServiceConnection) (broker : SseBroker) : Prop :=
  connection.closeFired = true ∧ connection.refreshing = 0 ∧
    ∀ connectionId ∈ connection.registered,
      (∀ cleanup ∈ broker.cleanups, cleanup.connectionId ≠ connectionId) ∧
      ((broker.connections.get connectionId).bind fun object => object.awaits) = none

instance (connection : ServiceConnection) (broker : SseBroker) :
    Decidable (connection.Quiet broker) :=
  inferInstanceAs (Decidable (_ ∧ _ ∧ ∀ connectionId ∈ connection.registered, _))

/-- The quota was released once, the lease heartbeat is cleared, and the broker does not have
the connection. -/
def GivesQuotaBack (connection : ServiceConnection) (broker : SseBroker) : Prop :=
  connection.releases = 1 ∧ connection.heartbeat = false ∧
    ∀ connectionId ∈ connection.registered, connectionId ∉ broker.connectionsById

instance (connection : ServiceConnection) (broker : SseBroker) :
    Decidable (connection.GivesQuotaBack broker) :=
  inferInstanceAs (Decidable (_ ∧ _ ∧ ∀ connectionId ∈ connection.registered, _))

end ServiceConnection

/-! ## The service -/

/-- The calls by their lease, over one broker. -/
structure SseService where
  broker : SseBroker
  connections : OrderedMap ℕ ServiceConnection

namespace SseService

inductive Action where
  | openRealtimeSseConnection (connectionLeaseId : ℕ) (input : RegisterConnectionInput)
  | connection (connectionLeaseId : ℕ) (action : ConnectionAction)
  | broker (action : SseBroker.Action)

/-- The steps that the broker takes without a call of the service. -/
def ofBroker : SseBroker.Action → Bool
  | .registerConnection .. | .cleanupConnection .. | .endResponse .. => false
  | _ => true

def start (isUp : Bool) : SseService := ⟨.start isUp, .empty⟩

/-- A new call has a new lease id, and its response is not ended. -/
def next {K : Type} (codec : JsonCodec K) (service : SseService) : Action → Option SseService
  | .openRealtimeSseConnection connectionLeaseId input =>
      if (service.connections.get connectionLeaseId).isNone then
        some { service with
          connections := service.connections.set connectionLeaseId (.ofInput input) }
      else none
  | .connection connectionLeaseId action =>
      (service.connections.get connectionLeaseId).bind fun connection =>
        (connection.next service.broker action).map fun (connection', broker') =>
          { broker := broker'
            connections := service.connections.set connectionLeaseId connection' }
  | .broker action =>
      if ofBroker action then
        (service.broker.next codec action).map fun broker' => { service with broker := broker' }
      else none

/-- Every client whose socket is closed, whose call has returned and for which nothing is
pending has given its quota back. -/
def GivesQuotasBack (service : SseService) : Prop :=
  ∀ connectionLeaseId connection, service.connections.get connectionLeaseId = some connection →
    connection.socketClosed = true → connection.phase = .returned →
    connection.Quiet service.broker → connection.GivesQuotaBack service.broker

/-- When the listeners are attached, 'close' has not fired. -/
def AttachesInTime (service : SseService) : Action → Prop
  | .connection connectionLeaseId .resume =>
      ∀ connection ∈ service.connections.get connectionLeaseId,
        ∀ connectionId ∈ connection.registered,
          (service.broker.registrations.get connectionId).any (· matches .returned) = true →
            connection.closeFired = false
  | _ => True

instance (service : SseService) : (action : Action) → Decidable (service.AttachesInTime action)
  | .connection connectionLeaseId .resume =>
      inferInstanceAs (Decidable (∀ connection ∈ service.connections.get connectionLeaseId,
        ∀ connectionId ∈ connection.registered, _ → _))
  | .connection _ (.decideLease ..) | .connection _ .disconnect | .connection _ .fireClose
  | .connection _ .fireError | .connection _ .heartbeat | .connection _ (.refreshed _)
  | .openRealtimeSseConnection .. | .broker _ => inferInstanceAs (Decidable True)

end SseService

end EliteHubVault
