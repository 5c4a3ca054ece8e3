import EliteHubVault.Sse.Connections
import EliteHubVault.Sse.WriteRuns

/-!
# What a closed connection keeps alive

A cleanup ends the keepalive interval of a connection. The end of a registration starts one
without looking whether the connection was closed meanwhile, or is closed by the frames that
greet it. A step that ends no registration so leaves no closed connection with an interval
(`silent_next`), and a step that does leaves one (`leaks_of_not_opensOpen`).

A connection is reported as opened when its registration ends well, and as closed when its
cleanup ends (`callbacks_next`).
-/

set_option autoImplicit false

namespace EliteHubVault

open Library

variable {K : Type} {codec : JsonCodec K}

/-! ## Intervals -/

namespace SseConnection

/-- A closed connection has no keepalive interval. -/
def Silent (connection : SseConnection) : Prop :=
  connection.isClosed = true → connection.heartbeat = false

/-- The connection is open, and its queue has room for the two frames that greet it. -/
def TakesGreeting (connection : SseConnection) : Prop :=
  connection.isClosed = false ∧ connection.queue.length + 2 ≤ maxQueueMessages ∧
    connection.queuedBytes + "retry: 2000\n\n".utf8ByteSize + ": connected\n\n".utf8ByteSize ≤
      maxQueueBytes

instance (connection : SseConnection) : Decidable connection.TakesGreeting :=
  inferInstanceAs (Decidable (_ ∧ _ ∧ _))

theorem keeps_silent : SseBroker.Keeps codec Silent where
  push connection frame _ isOpen _ isClosed := by
    rw [(connection.traffic_push frame).isClosed, isOpen] at isClosed
    cases isClosed
  number _ silent := silent
  closed _ _ _ := rfl
  resumeFlush connection silent isClosed := by
    rw [connection.traffic_resumeFlush.isClosed] at isClosed
    rw [resumeFlush, if_pos isClosed]
    exact silent isClosed
  idle _ _ _ silent := silent
  ended _ silent := silent

/-- A flush leaves of the queue no more than there was. -/
theorem flushLoop_le (frames : List String) (connection : SseConnection) :
    (connection.flushLoop frames).queue.length ≤ frames.length ∧
      (connection.flushLoop frames).queuedBytes ≤ connection.queuedBytes := by
  induction frames with
  | nil => exact ⟨le_rfl, le_rfl⟩
  | cons frame rest ih =>
      unfold flushLoop writeFrame
      split
      · exact ⟨ih.1.trans (Nat.le_succ _), ih.2⟩
      · split <;> exact ⟨Nat.le_succ _, by simp⟩

/-- A pushed frame adds at most itself to the queue. -/
theorem push_le (frame : String) (connection : SseConnection) :
    (connection.push frame).queue.length ≤ connection.queue.length + 1 ∧
      (connection.push frame).queuedBytes ≤ connection.queuedBytes + frame.utf8ByteSize := by
  unfold push flushConnectionQueue
  split
  · simp
  · have left := flushLoop_le (connection.queue ++ [frame]) { connection with
      queue := connection.queue ++ [frame]
      queuedBytes := connection.queuedBytes + frame.utf8ByteSize
      accepted := connection.accepted ++ [frame]
      isFlushing := true }
    simpa using left

/-- An open connection counts the bytes of its queue, and queues nothing without a flush. -/
def Tidy (connection : SseConnection) : Prop :=
  connection.isClosed = false → connection.queuedBytes = bytesOf connection.queue ∧
    (connection.isFlushing = false → connection.queue = [])

/-- A flush that runs takes frames from the queue and their bytes from the count. -/
theorem tidy_flushLoop (frames : List String) (connection : SseConnection)
    (bytes : connection.queuedBytes = bytesOf frames)
    (runs : frames ≠ [] → connection.isFlushing = true) :
    (connection.flushLoop frames).queuedBytes = bytesOf (connection.flushLoop frames).queue ∧
      ((connection.flushLoop frames).isFlushing = false →
        (connection.flushLoop frames).queue = []) := by
  induction frames with
  | nil => exact ⟨bytes, fun _ => rfl⟩
  | cons frame rest ih =>
      have size : connection.queuedBytes = frame.utf8ByteSize + bytesOf rest := by
        simpa [bytesOf] using bytes
      have flushing : connection.isFlushing = true := runs (List.cons_ne_nil _ _)
      unfold flushLoop
      split
      · rename_i blank
        subst blank
        refine ih (size.trans ?_) fun _ => flushing
        simp
      · have counted : connection.queuedBytes - frame.utf8ByteSize = bytesOf rest := by omega
        unfold writeFrame
        split
        · refine ⟨counted, fun idle => ?_⟩
          cases flushing.symm.trans idle
        · refine ⟨counted, fun idle => ?_⟩
          cases flushing.symm.trans idle

theorem Tidy.push {connection : SseConnection} (tidy : connection.Tidy)
    (isOpen : connection.isClosed = false) (frame : String) : (connection.push frame).Tidy := by
  obtain ⟨bytes, idle⟩ := tidy isOpen
  have counted : connection.queuedBytes + frame.utf8ByteSize =
      bytesOf (connection.queue ++ [frame]) := by
    rw [bytesOf_append, bytes]
  intro _
  cases flushing : connection.isFlushing with
  | true =>
      rw [push_busy flushing]
      refine ⟨counted, fun stopped => ?_⟩
      cases flushing.symm.trans stopped
  | false =>
      have loop : connection.push frame = flushLoop (connection.queue ++ [frame]) { connection with
          queue := connection.queue ++ [frame]
          queuedBytes := connection.queuedBytes + frame.utf8ByteSize
          accepted := connection.accepted ++ [frame]
          isFlushing := true } := by
        simp only [SseConnection.push, flushConnectionQueue, isOpen, flushing, Bool.false_eq_true,
          or_self, if_false]
      rw [loop]
      exact tidy_flushLoop _ _ counted fun _ => rfl

theorem Tidy.resumeFlush {connection : SseConnection} (tidy : connection.Tidy) :
    connection.resumeFlush.Tidy := by
  intro isOpen
  rw [connection.traffic_resumeFlush.isClosed] at isOpen
  obtain ⟨bytes, idle⟩ := tidy isOpen
  have loop : connection.resumeFlush =
      flushLoop connection.queue { connection with awaits := none } := by
    simp only [SseConnection.resumeFlush, isOpen, Bool.false_eq_true, if_false]
  rw [loop]
  refine tidy_flushLoop _ _ bytes fun filled => ?_
  by_contra stopped
  exact filled (idle (Bool.eq_false_of_not_eq_true stopped))

/-- A closed connection is tidy. -/
theorem tidy_of_closed {connection : SseConnection} (isClosed : connection.isClosed = true) :
    connection.Tidy := by
  intro isOpen
  cases isClosed.symm.trans isOpen

theorem Tidy.change {connection connection' : SseConnection} (tidy : connection.Tidy)
    (change : Change connection connection') : connection'.Tidy := by
  cases change with
  | raw isOpen =>
      split
      · exact tidy_of_closed rfl
      · exact tidy.push isOpen _
  | event isOpen eventType data =>
      unfold offer
      dsimp only
      split
      · exact tidy_of_closed rfl
      · have numbered : ({ connection with nextEventId := connection.nextEventId + 1 } :
            SseConnection).Tidy := tidy
        exact numbered.push isOpen _
  | close => exact tidy_of_closed rfl
  | finish isClosed => exact tidy_of_closed isClosed
  | heartbeat => exact tidy

theorem Tidy.changes {connection connection' : SseConnection} (tidy : connection.Tidy)
    (changes : Changes connection connection') : connection'.Tidy := by
  induction changes with
  | refl => exact tidy
  | tail _ change ih => exact ih.change change

/-- A tidy connection that takes the second frame after the first has room for both. -/
theorem Tidy.takesGreeting {connection : SseConnection} (tidy : connection.Tidy)
    (isOpen : connection.isClosed = false)
    (connected : ¬ (connection.push "retry: 2000\n\n").IsSlow ": connected\n\n") :
    connection.TakesGreeting := by
  obtain ⟨bytes, idle⟩ := tidy isOpen
  refine ⟨isOpen, ?_⟩
  cases flushing : connection.isFlushing with
  | true =>
      rw [push_busy flushing] at connected
      have room : ¬ (maxQueueMessages < (connection.queue ++ ["retry: 2000\n\n"]).length + 1 ∨
          maxQueueBytes < connection.queuedBytes + "retry: 2000\n\n".utf8ByteSize +
            ": connected\n\n".utf8ByteSize) := connected
      rw [List.length_append, List.length_singleton] at room
      omega
  | false =>
      have empty := idle flushing
      rw [empty] at bytes
      rw [empty, bytes]
      decide

theorem TakesGreeting.retry {connection : SseConnection} (takes : connection.TakesGreeting) :
    ¬ connection.IsSlow "retry: 2000\n\n" := by
  obtain ⟨-, room, space⟩ := takes
  have positive : (0 : ℤ) ≤ (": connected\n\n".utf8ByteSize : ℤ) := Int.natCast_nonneg _
  rintro (full | heavy)
  · omega
  · omega

theorem TakesGreeting.connected {connection : SseConnection} (takes : connection.TakesGreeting) :
    ¬ (connection.push "retry: 2000\n\n").IsSlow ": connected\n\n" := by
  obtain ⟨-, room, space⟩ := takes
  obtain ⟨longer, heavier⟩ := push_le "retry: 2000\n\n" connection
  rintro (full | heavy)
  · omega
  · omega

end SseConnection

namespace SseBroker

variable {broker broker' : SseBroker} {connectionId : ConnectionId}

/-- The step ends no registration, or one whose connection takes its greeting. -/
def OpensOpen (broker : SseBroker) : Action → Prop
  | .resumeRegistration connectionId false =>
      ∀ connection ∈ broker.connections.get connectionId, connection.TakesGreeting
  | _ => True

instance (broker : SseBroker) : (action : Action) → Decidable (broker.OpensOpen action)
  | .resumeRegistration connectionId false =>
      inferInstanceAs (Decidable (∀ connection ∈ broker.connections.get connectionId, _))
  | .resumeRegistration _ true | .registerConnection _ _ | .cleanupConnection _ _
  | .finishCleanup _ | .closeAllConnections | .settleWrite _ _ | .keepalive _ | .endResponse _
  | .message _ _ | .redis _ => isTrue trivial

/-- A frame that the queue takes leaves the connection open and in the map. -/
theorem find_enqueueRawFrame {connection : SseConnection} {frame : String}
    (found : broker.find connectionId = some connection) (isOpen : connection.isClosed = false)
    (fits : ¬ connection.IsSlow frame) :
    (broker.enqueueRawFrame connectionId frame).find connectionId =
      some (connection.push frame) := by
  have stored : (broker.enqueueRawFrame connectionId frame).connections.get connectionId =
      some (connection.push frame) := by
    rw [get_enqueueRawFrame_self found isOpen, if_neg fits]
  have kept : (broker.enqueueRawFrame connectionId frame).connectionsById =
      broker.connectionsById := by
    rw [enqueueRawFrame, found]
    simp only [isOpen, fits, Bool.false_eq_true, if_false]
    rfl
  rw [find, kept, if_pos (find_eq_some found).1, stored]

/-- A registration that ends on a connection with room for its greeting leaves it open. -/
theorem all_openConnection (codec : JsonCodec K) (wired : broker.Wired)
    (all : broker.All SseConnection.Silent) {connection : SseConnection}
    (known : broker.connections.get connectionId = some connection)
    (takes : connection.TakesGreeting) :
    (broker.openConnection connectionId).All SseConnection.Silent := by
  have found : broker.find connectionId = some connection := by
    rw [find, if_pos ((wired.live connectionId).mpr ⟨connection, known, takes.1⟩), known]
  have retried := find_enqueueRawFrame found takes.1 takes.retry
  have isOpen : (connection.push "retry: 2000\n\n").isClosed = false :=
    (connection.traffic_push _).isClosed.trans takes.1
  have greeted := find_enqueueRawFrame retried isOpen takes.connected
  have keeps : Keeps codec SseConnection.Silent := SseConnection.keeps_silent
  refine (all.greeted keeps connectionId).mapValues (fun other connection =>
    if other = connectionId then { connection with heartbeat := true } else connection)
    (fun other connection' stored silent => ?_) rfl
  split
  · rename_i own
    rw [own, (find_eq_some greeted).2] at stored
    obtain rfl := Option.some.inj stored
    intro isClosed
    have still := ((connection.push "retry: 2000\n\n").traffic_push ": connected\n\n").isClosed
    rw [still, isOpen] at isClosed
    cases isClosed
  · exact silent

/-- A connection that is closed stays closed while it is greeted. -/
theorem closed_enqueueRawFrame (frame : String) (plain : eventIdOf frame = none)
    (some_frame : frame ≠ "") {connection : SseConnection}
    (known : broker.connections.get connectionId = some connection)
    (isClosed : connection.isClosed = true) : ∃ connection',
      (broker.enqueueRawFrame connectionId frame).connections.get connectionId =
        some connection' ∧ connection'.isClosed = true := by
  have evolves : Evolves connectionId broker (broker.enqueueRawFrame connectionId frame) :=
    .enqueueRawFrame plain some_frame broker
  obtain ⟨connection', known', changes⟩ := evolves.present connection known
  exact ⟨connection', known', (changes.frozen isClosed).1⟩

/-- **A registration that ends otherwise leaks an interval**: on a closed connection, or on one
that its greeting closes. -/
theorem openConnection_leaks (wired : broker.Wired) {connection : SseConnection}
    (known : broker.connections.get connectionId = some connection) (tidy : connection.Tidy)
    (refuses : ¬ connection.TakesGreeting) : ∃ connection',
      (broker.openConnection connectionId).connections.get connectionId = some connection' ∧
        connection'.isClosed = true ∧ connection'.heartbeat = true := by
  have greeted : ∃ connection', ((broker.enqueueRawFrame connectionId
      "retry: 2000\n\n").enqueueRawFrame connectionId ": connected\n\n").connections.get
        connectionId = some connection' ∧ connection'.isClosed = true := by
    cases isOpen : connection.isClosed with
    | true =>
        obtain ⟨retried, known', isClosed⟩ :=
          closed_enqueueRawFrame "retry: 2000\n\n" (by decide) (by decide) known isOpen
        exact closed_enqueueRawFrame _ (by decide) (by decide) known' isClosed
    | false =>
        have found : broker.find connectionId = some connection := by
          rw [find, if_pos ((wired.live connectionId).mpr ⟨connection, known, isOpen⟩), known]
        by_cases slow : connection.IsSlow "retry: 2000\n\n"
        · have stored := (get_enqueueRawFrame_self found isOpen).trans
            (congrArg some (if_pos slow))
          exact closed_enqueueRawFrame _ (by decide) (by decide) stored rfl
        · have retried := find_enqueueRawFrame found isOpen slow
          have stillOpen : (connection.push "retry: 2000\n\n").isClosed = false :=
            (connection.traffic_push _).isClosed.trans isOpen
          refine ⟨_, get_enqueueRawFrame_self retried stillOpen, ?_⟩
          rw [if_pos]
          · rfl
          · by_contra connected
            exact refuses (tidy.takesGreeting isOpen connected)
  obtain ⟨closed, stored, isClosed⟩ := greeted
  refine ⟨{ closed with heartbeat := true }, ?_, isClosed, rfl⟩
  unfold openConnection
  simp only [OrderedMap.get_mapValues, stored, Option.map_some, if_true]

/-! ## Callbacks -/

theorem callbacks_cleanupConnection (connectionId : ConnectionId) (reason : SseCloseReason)
    (caller : CleanupCaller) (broker : SseBroker) :
    (broker.cleanupConnection connectionId reason caller).callbacks = broker.callbacks := by
  unfold cleanupConnection
  split
  · rfl
  split <;> rfl

theorem callbacks_enqueueRawFrame (connectionId : ConnectionId) (frame : String)
    (broker : SseBroker) :
    (broker.enqueueRawFrame connectionId frame).callbacks = broker.callbacks := by
  unfold enqueueRawFrame
  split
  · rfl
  split
  · rfl
  split
  · exact callbacks_cleanupConnection connectionId .backpressure .other broker
  · rfl

theorem callbacks_closeAllConnections (broker : SseBroker) :
    broker.closeAllConnections.callbacks = broker.callbacks := by
  unfold closeAllConnections
  generalize broker.connectionsById = connectionIds
  induction connectionIds generalizing broker with
  | nil => rfl
  | cons head rest ih =>
      exact (ih _).trans (callbacks_cleanupConnection head .serverShutdown .other broker)

theorem callbacks_settleWrite {failed : Bool}
    (taken : broker.settleWrite connectionId failed = some broker') :
    broker'.callbacks = broker.callbacks := by
  unfold settleWrite at taken
  split at taken
  · cases taken
  split at taken
  · cases taken
  · cases taken
  · cases taken
    rfl
  · dsimp only at taken
    split at taken
    · cases taken
      exact callbacks_cleanupConnection connectionId .writeError .flush _
    · cases taken
      rfl

theorem callbacks_routeTo (spec : RealtimeEventSpec K) (channelKey : String)
    (payload : RealtimePayload K) (broker : SseBroker) (connectionId : ConnectionId) :
    (broker.routeTo spec channelKey payload connectionId).callbacks = broker.callbacks := by
  unfold routeTo
  split
  · split
    · rfl
    split
    · rfl
    split
    · exact callbacks_enqueueRawFrame connectionId _ _
    · rfl
  · rfl

theorem callbacks_onMessage (codec : JsonCodec K) (channel message : String)
    (broker : SseBroker) : (broker.onMessage codec channel message).callbacks = broker.callbacks := by
  unfold onMessage
  split
  · rfl
  split
  · rfl
  · unfold routeEvent
    dsimp only
    split
    · rfl
    · generalize broker.connectionIdsByChannelKey.idsAt _ = connectionIds
      induction connectionIds generalizing broker with
      | nil => rfl
      | cons head rest ih => exact (ih _).trans (callbacks_routeTo _ _ _ broker head)

/-- **What a step reports**: a registration that ends well, or a cleanup that ends. -/
theorem callbacks_next {action : Action} (taken : broker.next codec action = some broker') :
    broker'.callbacks = broker.callbacks ∨
    (∃ connectionId tickets, action = .resumeRegistration connectionId false ∧
      broker.registrations.get connectionId = some (.awaitsDemand tickets) ∧
      broker'.callbacks = broker.callbacks ++ [.onConnectionOpened connectionId]) ∨
    ∃ index cleanup, action = .finishCleanup index ∧ broker.cleanups[index]? = some cleanup ∧
      broker.Settled cleanup.tickets ∧ broker'.callbacks =
        broker.callbacks ++ [.onConnectionClosed cleanup.connectionId cleanup.reason] := by
  cases action with
  | registerConnection now input =>
      cases taken
      exact .inl rfl
  | resumeRegistration connectionId failed =>
      unfold SseBroker.next resumeRegistration at taken
      dsimp only at taken
      split at taken
      · rename_i tickets awaits
        cases failed with
        | false =>
            obtain ⟨-, same⟩ := Option.ite_none_right_eq_some.mp taken
            cases same
            refine .inr (.inl ⟨connectionId, tickets, rfl, awaits, ?_⟩)
            exact congrArg (· ++ _) ((callbacks_enqueueRawFrame connectionId ": connected\n\n" _).trans
              (callbacks_enqueueRawFrame connectionId "retry: 2000\n\n" broker))
        | true =>
            cases taken
            exact .inl (callbacks_cleanupConnection connectionId .writeError .registration broker)
      · cases taken
  | cleanupConnection connectionId reason =>
      cases taken
      exact .inl (callbacks_cleanupConnection connectionId reason .other broker)
  | finishCleanup index =>
      unfold SseBroker.next finishCleanup at taken
      dsimp only at taken
      split at taken
      · cases taken
      · rename_i cleanup found
        obtain ⟨settled, same⟩ := Option.ite_none_right_eq_some.mp taken
        refine .inr (.inr ⟨index, cleanup, rfl, found, settled, ?_⟩)
        cases same
        split <;> rfl
  | closeAllConnections =>
      cases taken
      exact .inl (callbacks_closeAllConnections broker)
  | settleWrite connectionId failed => exact .inl (callbacks_settleWrite taken)
  | keepalive connectionId =>
      obtain ⟨-, same⟩ := Option.ite_none_right_eq_some.mp taken
      cases same
      exact .inl (callbacks_enqueueRawFrame connectionId _ broker)
  | endResponse connectionId =>
      obtain ⟨connection, -, rfl⟩ := Option.map_eq_some_iff.mp taken
      exact .inl rfl
  | message channel message =>
      cases taken
      exact .inl (callbacks_onMessage codec channel message broker)
  | redis event =>
      obtain ⟨manager, -, rfl⟩ := Option.map_eq_some_iff.mp taken
      exact .inl rfl

/-- A connection is reported as closed by the end of its cleanup. -/
theorem closed_of_next {action : Action} (taken : broker.next codec action = some broker')
    {reason : SseCloseReason}
    (member : .onConnectionClosed connectionId reason ∈ broker'.callbacks) :
    .onConnectionClosed connectionId reason ∈ broker.callbacks ∨
      ∃ index cleanup, action = .finishCleanup index ∧ broker.cleanups[index]? = some cleanup ∧
        broker.Settled cleanup.tickets ∧ cleanup.connectionId = connectionId := by
  obtain same | ⟨other, -, -, -, same⟩ | ⟨index, cleanup, finishes, found, settled, same⟩ :=
    callbacks_next taken
  · exact .inl (same ▸ member)
  · rw [same] at member
    obtain old | new := List.mem_append.mp member
    · exact .inl old
    · cases List.mem_singleton.mp new
  · rw [same] at member
    obtain old | new := List.mem_append.mp member
    · exact .inl old
    · cases List.mem_singleton.mp new
      exact .inr ⟨index, cleanup, finishes, found, settled, rfl⟩

/-- No connection is reported as opened after it was reported as closed. -/
def OpenedFirst (callbacks : List SseBrokerCallback) : Prop :=
  callbacks.Pairwise fun earlier later => ∀ connectionId reason,
    earlier = .onConnectionClosed connectionId reason → later ≠ .onConnectionOpened connectionId

/-- A step keeps the callbacks in order if it ends the registration of no connection that was
reported as closed. -/
theorem OpenedFirst.next {action : Action} (ordered : OpenedFirst broker.callbacks)
    (unreported : ∀ connectionId tickets, action = .resumeRegistration connectionId false →
      broker.registrations.get connectionId = some (.awaitsDemand tickets) →
        ∀ reason, .onConnectionClosed connectionId reason ∉ broker.callbacks)
    (taken : broker.next codec action = some broker') : OpenedFirst broker'.callbacks := by
  obtain same | ⟨connectionId, tickets, resumes, awaits, same⟩ | ⟨-, cleanup, -, -, -, same⟩ :=
    callbacks_next taken
  · exact same ▸ ordered
  · rw [OpenedFirst, same]
    refine List.pairwise_append.mpr ⟨ordered, List.pairwise_singleton _ _, ?_⟩
    rintro earlier member later single other reason rfl opened
    rw [List.mem_singleton.mp single] at opened
    cases opened
    exact unreported connectionId tickets resumes awaits reason member
  · rw [OpenedFirst, same]
    refine List.pairwise_append.mpr ⟨ordered, List.pairwise_singleton _ _, ?_⟩
    rintro earlier - later single other reason - opened
    rw [List.mem_singleton.mp single] at opened
    cases opened

/-- What was reported as closed is closed. -/
def ReportsClosed (broker : SseBroker) : Prop :=
  ∀ connectionId reason, .onConnectionClosed connectionId reason ∈ broker.callbacks →
    broker.Closed connectionId

theorem ReportsClosed.next {action : Action} (reports : broker.ReportsClosed)
    (disposed : broker.Disposed) (taken : broker.next codec action = some broker') :
    broker'.ReportsClosed := by
  intro connectionId reason member
  refine (Grows.step disposed.wired taken).closed connectionId ?_
  obtain old | ⟨index, cleanup, -, found, -, rfl⟩ := closed_of_next taken member
  · exact reports connectionId reason old
  · exact disposed.cleanups cleanup (List.mem_of_getElem? found)

/-- No registration of a connection that was reported as closed awaits its demand. -/
def ReportsLast (broker : SseBroker) : Prop :=
  ∀ connectionId reason, .onConnectionClosed connectionId reason ∈ broker.callbacks →
    ∀ tickets, broker.registrations.get connectionId ≠ some (.awaitsDemand tickets)

/-- A registration awaits its demand from its first step on. -/
theorem Wired.awaiting_of_next {action : Action} (wired : broker.Wired)
    (taken : broker.next codec action = some broker') {tickets : List Ticket}
    (awaits : broker'.registrations.get connectionId = some (.awaitsDemand tickets)) :
    broker.registrations.get connectionId = some (.awaitsDemand tickets) ∨
      ∃ now, connectionId = ⟨now, broker.nextConnectionId⟩ := by
  rcases wired.step_cases taken with ⟨now, input, -, rfl⟩ | touched | ⟨event, -, taken⟩
  · by_cases new : connectionId = ⟨now, broker.nextConnectionId⟩
    · exact .inr ⟨now, new⟩
    · exact .inl ((OrderedMap.get_set_of_ne _ _ new).symm.trans awaits)
  · refine .inl ?_
    clear taken
    induction touched with
    | refl => exact awaits
    | tail _ touched ih =>
        refine ih ?_
        cases touched with
        | traffic => exact awaits
        | update => exact awaits
        | cleanup => rwa [registrations_cleanupConnection] at awaits
        | book callbacks kept phases awaiting => exact awaiting connectionId tickets awaits
  · obtain ⟨manager, -, rfl⟩ := Option.map_eq_some_iff.mp taken
    exact .inl awaits

theorem ReportsLast.next {action : Action} (last : broker.ReportsLast) (disposed : broker.Disposed)
    (reports : broker.ReportsClosed)
    (due : ∀ index cleanup, action = .finishCleanup index → broker.cleanups[index]? = some cleanup →
      broker.Settled cleanup.tickets → ∀ tickets,
        broker.registrations.get cleanup.connectionId ≠ some (.awaitsDemand tickets))
    (taken : broker.next codec action = some broker') : broker'.ReportsLast := by
  intro connectionId reason member tickets awaits
  obtain awaited | ⟨now, rfl⟩ := disposed.wired.awaiting_of_next taken awaits
  · obtain old | ⟨index, cleanup, finishes, found, settled, rfl⟩ := closed_of_next taken member
    · exact last connectionId reason old tickets awaited
    · exact due index cleanup finishes found settled tickets awaited
  · have closed : broker.Closed ⟨now, broker.nextConnectionId⟩ := by
      obtain old | ⟨index, cleanup, -, found, -, same⟩ := closed_of_next taken member
      · exact reports _ reason old
      · exact same ▸ disposed.cleanups cleanup (List.mem_of_getElem? found)
    obtain ⟨connection, known, -⟩ := closed
    rw [disposed.wired.get_eq_none] at known
    cases known

/-! ## Steps -/

/-- **A step that ends no registration on a closed connection starts no interval that a closed
connection keeps.** -/
theorem silent_next {action : Action} (disposed : broker.Disposed)
    (all : broker.All SseConnection.Silent) (own : broker.OpensOpen action)
    (taken : broker.next codec action = some broker') : broker'.All SseConnection.Silent := by
  have keeps : Keeps codec SseConnection.Silent := SseConnection.keeps_silent
  refine all.next keeps (fun _ _ _ _ => rfl) (fun connectionId resumes => ?_) taken
  subst resumes
  unfold SseBroker.next resumeRegistration at taken
  dsimp only at taken
  split at taken
  · rename_i tickets awaits
    have registered : (broker.registrations.get connectionId).isSome := by
      rw [awaits]
      rfl
    obtain ⟨connection, known⟩ :=
      Option.isSome_iff_exists.mp (disposed.known connectionId registered)
    exact all_openConnection codec disposed.wired all known (own connection known)
  · cases taken

/-- Every step keeps the connections tidy. -/
theorem tidy_next {action : Action} (disposed : broker.Disposed)
    (all : broker.All SseConnection.Tidy) (taken : broker.next codec action = some broker') :
    broker'.All SseConnection.Tidy := by
  intro connectionId connection' known'
  by_cases writing : ∃ other failed, action = .settleWrite other failed
  · obtain ⟨other, failed, rfl⟩ := writing
    by_cases own : connectionId = other
    · subst own
      cases known : broker.connections.get connectionId with
      | none =>
          have settled : broker.settleWrite connectionId failed = some broker' := taken
          rw [settleWrite, known] at settled
          cases settled
      | some connection =>
          have tidy := all connectionId connection known
          cases failed with
          | false =>
              rw [get_settleWrite known taken] at known'
              obtain rfl := Option.some.inj known'
              exact tidy.resumeFlush
          | true =>
              obtain ⟨-, after⟩ | ⟨isClosed, after⟩ :=
                get_settleWrite_failed disposed.wired known taken
              · rw [after] at known'
                obtain rfl := Option.some.inj known'
                exact SseConnection.tidy_of_closed rfl
              · rw [after] at known'
                obtain rfl := Option.some.inj known'
                exact SseConnection.tidy_of_closed isClosed
    · rw [get_settleWrite_of_ne own taken] at known'
      exact all connectionId connection' known'
  by_cases ending : action = .endResponse connectionId
  · subst ending
    obtain ⟨connection, known, rfl⟩ := Option.map_eq_some_iff.mp taken
    have stored : some connection' =
        some { connection with response := connection.response.ended } :=
      known'.symm.trans (OrderedMap.get_set_self _ _ _)
    obtain rfl := Option.some.inj stored
    exact all connectionId connection known
  by_cases registering : ∃ now input, action = .registerConnection now input ∧
      connectionId = ⟨now, broker.nextConnectionId⟩
  · obtain ⟨now, input, rfl, new⟩ := registering
    cases taken
    rw [get_registerConnection, if_pos new] at known'
    obtain rfl := Option.some.inj known'
    exact fun _ => ⟨rfl, fun _ => rfl⟩
  · have evolves := evolves_next disposed taken (fun other failed same => writing ⟨_, _, same⟩)
      ending fun now input same new => registering ⟨now, input, same, new⟩
    cases known : broker.connections.get connectionId with
    | none =>
        rw [evolves.absent known] at known'
        cases known'
    | some connection =>
        obtain ⟨changed, same, changes⟩ := evolves.present connection known
        obtain rfl := Option.some.inj (same.symm.trans known')
        exact (all connectionId connection known).changes changes

/-- No closed connection has a keepalive interval, and the callbacks are in order. -/
structure NothingAlive (broker : SseBroker) : Prop where
  silent : ∀ connectionId connection, broker.connections.get connectionId = some connection →
    connection.isClosed = true → connection.heartbeat = false
  ordered : OpenedFirst broker.callbacks

/-- A step at which a registration ends otherwise leaks an interval. -/
theorem leaks_of_not_opensOpen {action : Action} (disposed : broker.Disposed)
    (tidy : broker.All SseConnection.Tidy) (taken : broker.next codec action = some broker')
    (closed : ¬ broker.OpensOpen action) : ¬ broker'.All SseConnection.Silent := by
  intro silent
  cases action with
  | resumeRegistration connectionId failed =>
      cases failed with
      | true => exact closed trivial
      | false =>
          have refused : ∃ connection, broker.connections.get connectionId = some connection ∧
              ¬ connection.TakesGreeting := by
            by_contra takes
            refine closed fun connection known => ?_
            by_contra refuses
            exact takes ⟨connection, known, refuses⟩
          obtain ⟨connection, known, refuses⟩ := refused
          unfold SseBroker.next resumeRegistration at taken
          dsimp only at taken
          split at taken
          · obtain ⟨-, same⟩ := Option.ite_none_right_eq_some.mp taken
            cases same
            obtain ⟨connection', known', isClosed, heartbeat⟩ := openConnection_leaks
              disposed.wired known (tidy connectionId connection known) refuses
            rw [silent connectionId connection' known' isClosed] at heartbeat
            cases heartbeat
          · cases taken
  | registerConnection | cleanupConnection | finishCleanup | closeAllConnections | settleWrite
  | keepalive | endResponse | message | redis => exact closed trivial

end SseBroker

end EliteHubVault
