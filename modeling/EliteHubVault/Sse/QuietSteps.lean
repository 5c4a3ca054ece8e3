import EliteHubVault.Sse.WireFormat
import EliteHubVault.Sse.WriteRuns

/-!
# Steps that offer no event

Only a message offers events to connections. Every other step leaves what a connection asks for
and the number of its next event as they are; it accepts frames without events, and none for a
closed connection (`quiet_next`). A registration adds a connection and is as quiet for the other
ones.
-/

set_option autoImplicit false

namespace EliteHubVault

open Library

variable {K : Type} {codec : JsonCodec K}

/-! ## Connections -/

namespace SseConnection

/-- The second connection has accepted some frames without events more than the first. -/
structure Quiet (codec : JsonCodec K) (before after : SseConnection) : Prop where
  eventType : after.eventType = before.eventType
  routingKeys : after.routingKeys = before.routingKeys
  systemIdAllowlist : after.systemIdAllowlist = before.systemIdAllowlist
  nextEventId : after.nextEventId = before.nextEventId
  closed : before.isClosed = true → after.isClosed = true
  accepted : ∃ frames : List (BrokerFrame K), (∀ frame ∈ frames, frame.event? = none) ∧
    after.accepted = before.accepted ++ frames.map (BrokerFrame.text codec)

namespace Quiet

variable {before middle after connection : SseConnection}

/-- Nothing is accepted. -/
theorem of_accepted (eventType : after.eventType = before.eventType)
    (routingKeys : after.routingKeys = before.routingKeys)
    (systemIdAllowlist : after.systemIdAllowlist = before.systemIdAllowlist)
    (nextEventId : after.nextEventId = before.nextEventId)
    (closed : before.isClosed = true → after.isClosed = true)
    (accepted : after.accepted = before.accepted) : before.Quiet codec after :=
  ⟨eventType, routingKeys, systemIdAllowlist, nextEventId, closed, [],
    fun _ member => absurd member List.not_mem_nil, by simpa using accepted⟩

theorem refl (connection : SseConnection) : connection.Quiet codec connection :=
  .of_accepted rfl rfl rfl rfl id rfl

theorem trans (first : before.Quiet codec middle) (second : middle.Quiet codec after) :
    before.Quiet codec after where
  eventType := second.eventType.trans first.eventType
  routingKeys := second.routingKeys.trans first.routingKeys
  systemIdAllowlist := second.systemIdAllowlist.trans first.systemIdAllowlist
  nextEventId := second.nextEventId.trans first.nextEventId
  closed isClosed := second.closed (first.closed isClosed)
  accepted := by
    obtain ⟨frames, plain, accepted⟩ := first.accepted
    obtain ⟨later, plain', accepted'⟩ := second.accepted
    refine ⟨frames ++ later, fun frame member => ?_, ?_⟩
    · obtain old | new := List.mem_append.mp member
      · exact plain frame old
      · exact plain' frame new
    · rw [accepted', accepted, List.append_assoc, List.map_append]

theorem push {frame : BrokerFrame K} (plain : frame.event? = none) :
    connection.Quiet codec (connection.push (frame.text codec)) := by
  have traffic := traffic_push (frame.text codec) connection
  obtain ⟨nextEventId, accepted⟩ := push_keeps (frame.text codec) connection
  refine ⟨traffic.eventType, traffic.routingKeys, traffic.systemIdAllowlist, nextEventId, ?_,
    [frame], ?_, accepted⟩
  · intro isClosed
    rw [traffic.isClosed]
    exact isClosed
  · intro other member
    rw [List.mem_singleton.mp member]
    exact plain

theorem close (connection : SseConnection) :
    connection.Quiet codec (SseConnection.closed connection) :=
  .of_accepted rfl rfl rfl rfl (fun _ => rfl) rfl

theorem resumeFlush (connection : SseConnection) :
    connection.Quiet codec connection.resumeFlush := by
  have traffic := connection.traffic_resumeFlush
  have keeps : connection.resumeFlush.nextEventId = connection.nextEventId ∧
      connection.resumeFlush.accepted = connection.accepted := by
    unfold SseConnection.resumeFlush
    split
    · exact ⟨rfl, rfl⟩
    · exact flushLoop_keeps connection.queue { connection with awaits := none }
  refine .of_accepted traffic.eventType traffic.routingKeys traffic.systemIdAllowlist keeps.1 ?_
    keeps.2
  intro isClosed
  rw [traffic.isClosed]
  exact isClosed

end Quiet

end SseConnection

/-! ## Brokers -/

namespace SseBroker

/-- The connections are the same ones, and each has changed quietly. -/
structure QuietStep (codec : JsonCodec K) (before after : SseBroker) : Prop where
  absent : ∀ connectionId, before.connections.get connectionId = none →
    after.connections.get connectionId = none
  present : ∀ connectionId connection, before.connections.get connectionId = some connection →
    ∃ connection', after.connections.get connectionId = some connection' ∧
      connection.Quiet codec connection'

namespace QuietStep

variable {before middle after broker broker' : SseBroker} {connectionId : ConnectionId}
  {connection connection' : SseConnection}

theorem of_connections (same : after.connections = before.connections) :
    QuietStep codec before after where
  absent connectionId absent := by rw [same, absent]
  present connectionId connection known := ⟨connection, by rw [same, known], .refl connection⟩

theorem refl (broker : SseBroker) : QuietStep codec broker broker := of_connections rfl

theorem trans (first : QuietStep codec before middle) (second : QuietStep codec middle after) :
    QuietStep codec before after where
  absent connectionId absent := second.absent connectionId (first.absent connectionId absent)
  present connectionId connection known := by
    obtain ⟨connection', known', quiet⟩ := first.present connectionId connection known
    obtain ⟨connection'', known'', quiet'⟩ := second.present connectionId connection' known'
    exact ⟨connection'', known'', quiet.trans quiet'⟩

/-- One connection changes quietly. -/
theorem of_set (known : before.connections.get connectionId = some connection)
    (quiet : connection.Quiet codec connection')
    (stored : after.connections = before.connections.set connectionId connection') :
    QuietStep codec before after where
  absent other absent := by
    rw [stored, OrderedMap.get_set, if_neg]
    · exact absent
    · rintro rfl
      rw [absent] at known
      cases known
  present other otherConnection knownOther := by
    rw [stored]
    by_cases own : other = connectionId
    · subst own
      obtain rfl := Option.some.inj (known.symm.trans knownOther)
      exact ⟨connection', OrderedMap.get_set_self _ _ _, quiet⟩
    · exact ⟨otherConnection, (OrderedMap.get_set_of_ne _ _ own).trans knownOther, .refl _⟩

theorem of_update (known : broker.connections.get connectionId = some connection)
    (quiet : connection.Quiet codec connection') :
    QuietStep codec broker (broker.update connectionId connection') := of_set known quiet rfl

/-- All connections change quietly. -/
theorem mapValues (change : ConnectionId → SseConnection → SseConnection)
    (quiet : ∀ connectionId (connection : SseConnection),
      connection.Quiet codec (change connectionId connection))
    (mapped : after.connections = before.connections.mapValues change) :
    QuietStep codec before after where
  absent connectionId absent := by rw [mapped, OrderedMap.get_mapValues, absent]; rfl
  present connectionId connection known :=
    ⟨change connectionId connection, by rw [mapped, OrderedMap.get_mapValues, known]; rfl,
      quiet connectionId connection⟩

theorem cleanupConnection (connectionId : ConnectionId) (reason : SseCloseReason)
    (caller : CleanupCaller) (broker : SseBroker) :
    QuietStep codec broker (broker.cleanupConnection connectionId reason caller) := by
  unfold SseBroker.cleanupConnection
  split
  · exact refl broker
  · rename_i connection found
    split
    · exact refl broker
    · exact of_set (find_eq_some found).2 (.close connection) rfl

theorem enqueueRawFrame (connectionId : ConnectionId) (frame : BrokerFrame K)
    (plain : frame.event? = none) (broker : SseBroker) :
    QuietStep codec broker (broker.enqueueRawFrame connectionId (frame.text codec)) := by
  unfold SseBroker.enqueueRawFrame
  split
  · exact refl broker
  · rename_i connection found
    split
    · exact refl broker
    split
    · exact cleanupConnection connectionId .backpressure .other broker
    · exact of_set (find_eq_some found).2 (.push plain) rfl

theorem openConnection (connectionId : ConnectionId) (broker : SseBroker) :
    QuietStep codec broker (broker.openConnection connectionId) := by
  have retry : QuietStep codec broker (broker.enqueueRawFrame connectionId "retry: 2000\n\n") :=
    enqueueRawFrame connectionId .retry rfl broker
  have connected : QuietStep codec (broker.enqueueRawFrame connectionId "retry: 2000\n\n")
      ((broker.enqueueRawFrame connectionId "retry: 2000\n\n").enqueueRawFrame connectionId
        ": connected\n\n") := enqueueRawFrame connectionId .connected rfl _
  refine (retry.trans connected).trans (mapValues (fun other connection =>
    if other = connectionId then { connection with heartbeat := true } else connection) ?_ rfl)
  intro other connection
  split
  · exact .of_accepted rfl rfl rfl rfl id rfl
  · exact .refl connection

theorem finishCleanup {index : ℕ} (taken : broker.finishCleanup index = some broker') :
    QuietStep codec broker broker' := by
  unfold SseBroker.finishCleanup at taken
  split at taken
  · cases taken
  · rename_i cleanup _
    obtain ⟨-, same⟩ := Option.ite_none_right_eq_some.mp taken
    cases same
    split
    · exact of_connections rfl
    · refine mapValues (fun other connection =>
        if other = cleanup.connectionId then { connection with isFlushing := false }
        else connection) ?_ rfl
      intro other connection
      split
      · exact .of_accepted rfl rfl rfl rfl id rfl
      · exact .refl connection
    · exact of_connections rfl

theorem closeAllConnections (broker : SseBroker) :
    QuietStep codec broker broker.closeAllConnections := by
  unfold SseBroker.closeAllConnections
  generalize broker.connectionsById = connectionIds
  induction connectionIds generalizing broker with
  | nil => exact refl broker
  | cons head rest ih => exact (cleanupConnection head .serverShutdown .other broker).trans (ih _)

theorem settleWrite {failed : Bool}
    (taken : broker.settleWrite connectionId failed = some broker') :
    QuietStep codec broker broker' := by
  unfold SseBroker.settleWrite at taken
  split at taken
  · cases taken
  · rename_i connection known
    split at taken
    · cases taken
    · cases taken
    · cases taken
      exact of_set known (.resumeFlush connection) rfl
    · have rejected : QuietStep codec broker
          (broker.update connectionId { connection with awaits := none }) :=
        of_update known (.of_accepted rfl rfl rfl rfl id rfl)
      dsimp only at taken
      split at taken
      · cases taken
        exact rejected.trans (cleanupConnection connectionId .writeError .flush _)
      · cases taken
        have stored : (broker.update connectionId { connection with awaits := none }).connections.get
            connectionId = some { connection with awaits := none } := OrderedMap.get_set_self _ _ _
        exact rejected.trans (of_update stored (.of_accepted rfl rfl rfl rfl id rfl))

theorem resumeRegistration {failed : Bool}
    (taken : broker.resumeRegistration connectionId failed = some broker') :
    QuietStep codec broker broker' := by
  unfold SseBroker.resumeRegistration at taken
  split at taken
  · split at taken
    · cases taken
      refine (cleanupConnection connectionId .writeError .registration broker).trans ?_
      exact of_connections rfl
    · obtain ⟨-, same⟩ := Option.ite_none_right_eq_some.mp taken
      cases same
      exact openConnection connectionId broker
  · cases taken

end QuietStep

variable {broker broker' : SseBroker}

/-- **Only messages and registrations are not quiet.** -/
theorem quiet_next {action : Action} (taken : broker.next codec action = some broker')
    (silent : ∀ channel message, action ≠ .message channel message)
    (registered : ∀ now input, action ≠ .registerConnection now input) :
    QuietStep codec broker broker' := by
  cases action with
  | registerConnection now input => exact absurd rfl (registered now input)
  | resumeRegistration connectionId failed => exact .resumeRegistration taken
  | cleanupConnection connectionId reason =>
      cases taken
      exact .cleanupConnection connectionId reason .other broker
  | finishCleanup index => exact .finishCleanup taken
  | closeAllConnections =>
      cases taken
      exact .closeAllConnections broker
  | settleWrite connectionId failed => exact .settleWrite taken
  | keepalive connectionId =>
      obtain ⟨-, same⟩ := Option.ite_none_right_eq_some.mp taken
      cases same
      exact .enqueueRawFrame connectionId .keepalive rfl broker
  | endResponse connectionId =>
      obtain ⟨connection, known, rfl⟩ := Option.map_eq_some_iff.mp taken
      exact .of_update known (.of_accepted rfl rfl rfl rfl id rfl)
  | message channel message => exact absurd rfl (silent channel message)
  | redis event =>
      obtain ⟨manager, -, rfl⟩ := Option.map_eq_some_iff.mp taken
      exact .of_connections rfl

end SseBroker

end EliteHubVault
