import EliteHubVault.Sse.FanOut

/-!
# What holds of every connection

The broker keeps its connection objects after they are closed. What it does to one is to push a
frame on its queue, to count an event, to go on with its flush, or to close it; the frames that
it pushes are those of `BrokerFrame`. A property of connections that these operations keep
holds of all connections after every step (`All.next`), but for the two steps that give a
connection its first state and its keepalive interval: a registration, and its end.
-/

set_option autoImplicit false

namespace EliteHubVault

open Library

variable {K : Type}

/-! ## The frames of the broker -/

inductive BrokerFrame (K : Type) where
  | retry
  | connected
  | keepalive
  | event (eventType : RealtimeEventType) (eventId : ℕ) (payload : Json K)

/-- What the broker passes to `enqueueRawFrame`. -/
def BrokerFrame.text (codec : JsonCodec K) : BrokerFrame K → String
  | retry => "retry: 2000\n\n"
  | connected => ": connected\n\n"
  | keepalive => ": keepalive\n\n"
  | event eventType eventId payload =>
      createSseEventFrame eventType.text eventId (codec.stringify payload)

/-- The text of a frame of the broker. -/
def IsBrokerFrame (codec : JsonCodec K) (text : String) : Prop :=
  ∃ frame : BrokerFrame K, frame.text codec = text

/-! ## Properties of connections -/

namespace SseBroker

/-- Every connection object has the property, whether the connection is open or closed. -/
def All (holds : SseConnection → Prop) (broker : SseBroker) : Prop :=
  ∀ connectionId connection, broker.connections.get connectionId = some connection →
    holds connection

/-- What the broker does to a connection keeps the property. -/
structure Keeps (codec : JsonCodec K) (holds : SseConnection → Prop) : Prop where
  push : ∀ connection frame, holds connection → connection.isClosed = false →
    IsBrokerFrame codec frame → holds (connection.push frame)
  number : ∀ connection, holds connection →
    holds { connection with nextEventId := connection.nextEventId + 1 }
  closed : ∀ connection, holds connection → holds connection.closed
  resumeFlush : ∀ connection, holds connection → holds connection.resumeFlush
  idle : ∀ connection awaits isFlushing, holds connection →
    holds { connection with awaits, isFlushing }
  ended : ∀ connection, holds connection →
    holds { connection with response := connection.response.ended }

variable {codec : JsonCodec K} {holds : SseConnection → Prop} {broker broker' : SseBroker}
  {connectionId : ConnectionId}

namespace All

theorem of_get (all : broker.All holds) (same : broker'.connections = broker.connections) :
    broker'.All holds := fun connectionId connection known =>
  all connectionId connection (same ▸ known)

theorem set (all : broker.All holds) {connection : SseConnection} (own : holds connection)
    (stored : broker'.connections = broker.connections.set connectionId connection) :
    broker'.All holds := by
  intro other connection' known
  rw [stored, OrderedMap.get_set] at known
  split at known
  · obtain rfl := Option.some.inj known
    exact own
  · exact all other connection' known

theorem mapValues (all : broker.All holds) (change : ConnectionId → SseConnection → SseConnection)
    (changes : ∀ other connection, broker.connections.get other = some connection →
      holds connection → holds (change other connection))
    (mapped : broker'.connections = broker.connections.mapValues change) : broker'.All holds := by
  intro other connection known
  rw [mapped, OrderedMap.get_mapValues] at known
  obtain ⟨before, stored, rfl⟩ := Option.map_eq_some_iff.mp known
  exact changes other before stored (all other before stored)

theorem cleanupConnection (keeps : Keeps codec holds) (all : broker.All holds)
    (reason : SseCloseReason) (caller : CleanupCaller) :
    (broker.cleanupConnection connectionId reason caller).All holds := by
  unfold SseBroker.cleanupConnection
  split
  · exact all
  · rename_i connection found
    split
    · exact all
    · exact all.set (keeps.closed connection (all _ connection (find_eq_some found).2)) rfl

theorem enqueueRawFrame (keeps : Keeps codec holds) (all : broker.All holds) {frame : String}
    (sent : IsBrokerFrame codec frame) :
    (broker.enqueueRawFrame connectionId frame).All holds := by
  unfold SseBroker.enqueueRawFrame
  split
  · exact all
  · rename_i connection found
    split
    · exact all
    rename_i isOpen
    split
    · exact all.cleanupConnection keeps .backpressure .other
    · refine all.set (keeps.push connection frame (all _ connection (find_eq_some found).2) ?_ sent)
        rfl
      exact Bool.eq_false_of_not_eq_true isOpen

theorem routeTo (keeps : Keeps codec holds) (all : broker.All holds)
    (eventType : RealtimeEventType) (channelKey : String) (payload : RealtimePayload K) :
    (broker.routeTo (realtimeEventSpecs codec eventType) channelKey payload
      connectionId).All holds := by
  unfold SseBroker.routeTo
  split
  · split
    · exact all
    · rename_i connection found
      split
      · exact all
      split
      · have numbered := keeps.number connection (all _ connection (find_eq_some found).2)
        refine (all.set numbered rfl).enqueueRawFrame keeps
          ⟨.event eventType connection.nextEventId payload.toJson, ?_⟩
        rw [eventType_realtimeEventSpecs, toSseData_realtimeEventSpecs]
        rfl
      · exact all
  · exact all

theorem onMessage (keeps : Keeps codec holds) (all : broker.All holds)
    (channel message : String) : (broker.onMessage codec channel message).All holds := by
  unfold SseBroker.onMessage
  split
  · exact all
  split
  · exact all
  · rename_i found _ _ payload _
    simp only [routeEvent, getRealtimeEventSpec_text]
    generalize broker.connectionIdsByChannelKey.idsAt _ = connectionIds
    induction connectionIds generalizing broker with
    | nil => exact all
    | cons head rest ih => exact ih (all.routeTo keeps found.eventType _ payload)

theorem settleWrite (keeps : Keeps codec holds) (all : broker.All holds) {failed : Bool}
    (taken : broker.settleWrite connectionId failed = some broker') : broker'.All holds := by
  unfold SseBroker.settleWrite at taken
  split at taken
  · cases taken
  · rename_i connection known
    have own := all connectionId connection known
    split at taken
    · cases taken
    · cases taken
    · cases taken
      exact all.set (keeps.resumeFlush connection own) rfl
    · have rejected : (broker.update connectionId { connection with awaits := none }).All holds :=
        all.set (keeps.idle connection none connection.isFlushing own) rfl
      dsimp only at taken
      split at taken
      · cases taken
        exact rejected.cleanupConnection keeps .writeError .flush
      · cases taken
        exact rejected.set (keeps.idle connection none false own) rfl

theorem finishCleanup (keeps : Keeps codec holds) (all : broker.All holds) {index : ℕ}
    (taken : broker.finishCleanup index = some broker') : broker'.All holds := by
  unfold SseBroker.finishCleanup at taken
  split at taken
  · cases taken
  · rename_i cleanup _
    obtain ⟨-, same⟩ := Option.ite_none_right_eq_some.mp taken
    cases same
    split
    · exact all.of_get rfl
    · refine all.mapValues (fun other connection =>
        if other = cleanup.connectionId then { connection with isFlushing := false }
        else connection) (fun other connection _ own => ?_) rfl
      split
      · exact keeps.idle connection connection.awaits false own
      · exact own
    · exact all.of_get rfl

/-- The frames that greet a connection keep the property. -/
theorem greeted (keeps : Keeps codec holds) (all : broker.All holds)
    (connectionId : ConnectionId) :
    ((broker.enqueueRawFrame connectionId "retry: 2000\n\n").enqueueRawFrame connectionId
      ": connected\n\n").All holds :=
  All.enqueueRawFrame keeps (all.enqueueRawFrame keeps ⟨.retry, rfl⟩) ⟨.connected, rfl⟩

/-- So does the end of a registration, if the keepalive interval keeps it. -/
theorem openConnection (keeps : Keeps codec holds) (all : broker.All holds)
    (connectionId : ConnectionId)
    (beats : ∀ connection, holds connection → holds { connection with heartbeat := true }) :
    (broker.openConnection connectionId).All holds := by
  refine (all.greeted keeps connectionId).mapValues (fun other connection =>
    if other = connectionId then { connection with heartbeat := true } else connection)
    (fun other connection _ own => ?_) rfl
  split
  · exact beats connection own
  · exact own

theorem closeAllConnections (keeps : Keeps codec holds) (all : broker.All holds) :
    broker.closeAllConnections.All holds := by
  unfold SseBroker.closeAllConnections
  generalize broker.connectionsById = connectionIds
  induction connectionIds generalizing broker with
  | nil => exact all
  | cons head rest ih => exact ih (all.cleanupConnection keeps .serverShutdown .other)

/-- **Every step keeps the property of all connections**, if a registration has it and the end
of a registration keeps it. -/
theorem next {action : Action} (keeps : Keeps codec holds) (all : broker.All holds)
    (registering : ∀ now input, action = .registerConnection now input →
      holds (SseConnection.ofInput input))
    (opening : ∀ connectionId, action = .resumeRegistration connectionId false →
      (broker.openConnection connectionId).All holds)
    (taken : broker.next codec action = some broker') : broker'.All holds := by
  cases action with
  | registerConnection now input =>
      cases taken
      exact all.set (registering now input rfl) rfl
  | resumeRegistration connectionId failed =>
      unfold SseBroker.next SseBroker.resumeRegistration at taken
      dsimp only at taken
      split at taken
      · cases failed with
        | false =>
            obtain ⟨-, same⟩ := Option.ite_none_right_eq_some.mp taken
            cases same
            exact opening connectionId rfl
        | true =>
            cases taken
            exact (all.cleanupConnection keeps .writeError .registration).of_get rfl
      · cases taken
  | cleanupConnection connectionId reason =>
      cases taken
      exact all.cleanupConnection keeps reason .other
  | finishCleanup index => exact all.finishCleanup keeps taken
  | closeAllConnections =>
      cases taken
      exact all.closeAllConnections keeps
  | settleWrite connectionId failed => exact all.settleWrite keeps taken
  | keepalive connectionId =>
      obtain ⟨-, same⟩ := Option.ite_none_right_eq_some.mp taken
      cases same
      exact all.enqueueRawFrame keeps ⟨.keepalive, rfl⟩
  | endResponse connectionId =>
      obtain ⟨connection, known, rfl⟩ := Option.map_eq_some_iff.mp taken
      exact all.set (keeps.ended connection (all connectionId connection known)) rfl
  | message channel message =>
      cases taken
      exact all.onMessage keeps channel message
  | redis event =>
      obtain ⟨manager, -, rfl⟩ := Option.map_eq_some_iff.mp taken
      exact all.of_get rfl

end All

end SseBroker

end EliteHubVault
