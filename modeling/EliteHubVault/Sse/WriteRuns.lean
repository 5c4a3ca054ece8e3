import EliteHubVault.Sse.Disposal
import EliteHubVault.Sse.WriteQueue

/-!
# Writes in whole runs

The response answers a write when it calls its callback, with or without an error. A flush
awaits the callback or the timeout, whichever comes first, so a callback may come after the
timeout. Every other step of the broker changes a connection only as `Change` says, as long as
nobody else ends its response. So the queue of a connection is kept in every run
(`write_queue_kept`).
-/

set_option autoImplicit false

namespace EliteHubVault

open Library

namespace SseBroker

variable {broker broker' : SseBroker} {connectionId other : ConnectionId}

/-! ## What the broker does to a connection -/

/-- A connection is known before and after, and it changes as the broker changes connections. -/
structure Evolves (connectionId : ConnectionId) (before after : SseBroker) : Prop where
  absent : before.connections.get connectionId = none →
    after.connections.get connectionId = none
  present : ∀ connection, before.connections.get connectionId = some connection →
    ∃ connection', after.connections.get connectionId = some connection' ∧
      SseConnection.Changes connection connection'

namespace Evolves

variable {before middle after : SseBroker}

theorem of_get (same : after.connections.get connectionId = before.connections.get connectionId) :
    Evolves connectionId before after :=
  ⟨fun absent => same.trans absent,
    fun connection known => ⟨connection, same.trans known, .refl⟩⟩

theorem refl (broker : SseBroker) : Evolves connectionId broker broker := of_get rfl

theorem trans (first : Evolves connectionId before middle)
    (second : Evolves connectionId middle after) : Evolves connectionId before after where
  absent absent := second.absent (first.absent absent)
  present connection known := by
    obtain ⟨connection', known', changes⟩ := first.present connection known
    obtain ⟨connection'', known'', changes'⟩ := second.present connection' known'
    exact ⟨connection'', known'', changes.trans changes'⟩

/-- One connection changes once. -/
theorem of_change {connection connection' : SseConnection}
    (known : before.connections.get connectionId = some connection)
    (known' : after.connections.get connectionId = some connection')
    (change : SseConnection.Change connection connection') :
    Evolves connectionId before after where
  absent absent := by
    rw [known] at absent
    cases absent
  present found same := by
    cases known.symm.trans same
    exact ⟨connection', known', .single change⟩

theorem cleanupConnection (reason : SseCloseReason) (caller : CleanupCaller)
    (broker : SseBroker) :
    Evolves connectionId broker (broker.cleanupConnection other reason caller) := by
  by_cases own : connectionId = other
  · subst own
    cases found : broker.find connectionId with
    | none =>
        rw [SseBroker.cleanupConnection, found]
        exact refl broker
    | some connection =>
        cases isOpen : connection.isClosed with
        | true =>
            rw [SseBroker.cleanupConnection, found]
            simp only [isOpen, if_true]
            exact refl broker
        | false =>
            refine of_change (find_eq_some found).2 ?_ (.close isOpen)
            rw [get_cleanupConnection found isOpen, if_pos rfl]
  · exact of_get (SameFor.cleanupConnection own reason caller broker).get

theorem enqueueRawFrame {frame : String} (plain : eventIdOf frame = none)
    (some_frame : frame ≠ "") (broker : SseBroker) :
    Evolves connectionId broker (broker.enqueueRawFrame other frame) := by
  by_cases own : connectionId = other
  · subst own
    cases found : broker.find connectionId with
    | none =>
        rw [SseBroker.enqueueRawFrame, found]
        exact refl broker
    | some connection =>
        cases isOpen : connection.isClosed with
        | true =>
            rw [SseBroker.enqueueRawFrame, found]
            simp only [isOpen, if_true]
            exact refl broker
        | false =>
            exact of_change (find_eq_some found).2 (get_enqueueRawFrame_self found isOpen)
              (.raw isOpen plain some_frame)
  · exact of_get (SameFor.enqueueRawFrame own frame broker).get

/-- All connections are changed at once. -/
theorem mapValues (change : ConnectionId → SseConnection → SseConnection)
    (changes : ∀ connection, broker.connections.get connectionId = some connection →
      SseConnection.Changes connection (change connectionId connection))
    (mapped : broker'.connections = broker.connections.mapValues change) :
    Evolves connectionId broker broker' where
  absent absent := by rw [mapped, OrderedMap.get_mapValues, absent]; rfl
  present connection known :=
    ⟨change connectionId connection, by rw [mapped, OrderedMap.get_mapValues, known]; rfl,
      changes connection known⟩

theorem openConnection (broker : SseBroker) :
    Evolves connectionId broker (broker.openConnection other) := by
  have retry : Evolves connectionId broker (broker.enqueueRawFrame other "retry: 2000\n\n") :=
    enqueueRawFrame (by decide) (by decide) broker
  have connected : Evolves connectionId (broker.enqueueRawFrame other "retry: 2000\n\n")
      ((broker.enqueueRawFrame other "retry: 2000\n\n").enqueueRawFrame other
        ": connected\n\n") := enqueueRawFrame (by decide) (by decide) _
  refine (retry.trans connected).trans (mapValues (fun id connection =>
    if id = other then { connection with heartbeat := true } else connection)
    (fun connection _ => ?_) rfl)
  split
  · exact .single .heartbeat
  · exact .refl

theorem resumeRegistration {failed : Bool}
    (taken : broker.resumeRegistration other failed = some broker') :
    Evolves connectionId broker broker' := by
  unfold SseBroker.resumeRegistration at taken
  split at taken
  · split at taken
    · cases taken
      exact (cleanupConnection .writeError .registration broker).trans (of_get rfl)
    · obtain ⟨-, same⟩ := Option.ite_none_right_eq_some.mp taken
      cases same
      exact openConnection broker
  · cases taken

/-- A cleanup that ends is about a closed connection. -/
theorem finishCleanup (disposed : broker.Disposed) {index : ℕ}
    (taken : broker.finishCleanup index = some broker') :
    Evolves connectionId broker broker' := by
  unfold SseBroker.finishCleanup at taken
  split at taken
  · cases taken
  · rename_i cleanup found
    obtain ⟨-, same⟩ := Option.ite_none_right_eq_some.mp taken
    cases same
    split
    · exact of_get rfl
    · refine mapValues (fun id connection =>
        if id = cleanup.connectionId then { connection with isFlushing := false } else connection)
        (fun connection known => ?_) rfl
      split
      · rename_i own
        obtain ⟨closed, stored, isClosed⟩ :=
          disposed.cleanups cleanup (List.mem_of_getElem? found)
        rw [← own, known] at stored
        cases stored
        exact .single (.finish isClosed)
      · exact .refl
    · exact of_get rfl

theorem closeAllConnections (broker : SseBroker) :
    Evolves connectionId broker broker.closeAllConnections := by
  unfold SseBroker.closeAllConnections
  generalize broker.connectionsById = connectionIds
  induction connectionIds generalizing broker with
  | nil => exact refl broker
  | cons head rest ih =>
      exact (cleanupConnection .serverShutdown .other broker).trans (ih _)

theorem onMessage {K : Type} (codec : JsonCodec K) (wired : broker.Wired)
    (channel message : String) :
    Evolves connectionId broker (broker.onMessage codec channel message) := by
  unfold SseBroker.onMessage
  split
  · exact refl broker
  split
  · exact refl broker
  · rename_i payload _
    refine ⟨fun absent => ?_, fun connection known => ?_⟩
    · rw [wired.get_routeEvent, absent]
      rfl
    · refine ⟨_, by rw [wired.get_routeEvent, known]; rfl, ?_⟩
      dsimp only
      split
      · rename_i receives
        exact .single (.event receives.1 _ _)
      · exact .refl

end Evolves

/-- **Steps of the broker other than the end of a write** change a connection only as `Change`
says, or register it. -/
theorem evolves_next {K : Type} {codec : JsonCodec K} {action : Action}
    (disposed : broker.Disposed) (taken : broker.next codec action = some broker')
    (writing : ∀ other failed, action ≠ .settleWrite other failed)
    (ending : action ≠ .endResponse connectionId)
    (registering : ∀ now input, action = .registerConnection now input →
      connectionId ≠ ⟨now, broker.nextConnectionId⟩) :
    Evolves connectionId broker broker' := by
  cases action with
  | registerConnection now input =>
      cases taken
      refine .of_get ?_
      rw [get_registerConnection, if_neg (registering now input rfl)]
  | resumeRegistration other failed => exact .resumeRegistration taken
  | cleanupConnection other reason =>
      cases taken
      exact .cleanupConnection reason .other broker
  | finishCleanup index => exact .finishCleanup disposed taken
  | closeAllConnections =>
      cases taken
      exact .closeAllConnections broker
  | settleWrite other failed => exact absurd rfl (writing other failed)
  | keepalive other =>
      obtain ⟨-, same⟩ := Option.ite_none_right_eq_some.mp taken
      cases same
      exact .enqueueRawFrame (by decide) (by decide) broker
  | endResponse other =>
      obtain ⟨connection, -, rfl⟩ := Option.map_eq_some_iff.mp taken
      refine .of_get (OrderedMap.get_set_of_ne _ _ ?_)
      rintro rfl
      exact ending rfl
  | message channel message =>
      cases taken
      exact .onMessage codec disposed.wired channel message
  | redis event =>
      obtain ⟨manager, -, rfl⟩ := Option.map_eq_some_iff.mp taken
      exact .of_get rfl

/-! ## The end of a write -/

theorem get_settleWrite_of_ne {failed : Bool} (away : connectionId ≠ other)
    (taken : broker.settleWrite other failed = some broker') :
    broker'.connections.get connectionId = broker.connections.get connectionId := by
  unfold settleWrite at taken
  split at taken
  · cases taken
  · rename_i connection known
    split at taken
    · cases taken
    · cases taken
    · cases taken
      exact OrderedMap.get_set_of_ne _ _ away
    · dsimp only at taken
      split at taken
      · cases taken
        refine (SameFor.cleanupConnection away _ _ _).get.trans ?_
        exact OrderedMap.get_set_of_ne _ _ away
      · cases taken
        exact (OrderedMap.get_set_of_ne _ _ away).trans (OrderedMap.get_set_of_ne _ _ away)

/-- A write that was answered without an error, or that had nothing to write. -/
theorem get_settleWrite {connection : SseConnection}
    (known : broker.connections.get connectionId = some connection)
    (taken : broker.settleWrite connectionId false = some broker') :
    broker'.connections.get connectionId = some connection.resumeFlush := by
  unfold settleWrite at taken
  rw [known] at taken
  dsimp only at taken
  split at taken
  · cases taken
  · rename_i impossible
    cases impossible
  · cases taken
    exact OrderedMap.get_set_self _ _ _
  · rename_i impossible
    cases impossible

/-- A write that failed or timed out. -/
theorem get_settleWrite_failed (wired : broker.Wired) {connection : SseConnection}
    (known : broker.connections.get connectionId = some connection)
    (taken : broker.settleWrite connectionId true = some broker') :
    (connection.isClosed = false ∧ broker'.connections.get connectionId =
        some ({ connection with awaits := none } : SseConnection).closed) ∨
      (connection.isClosed = true ∧ broker'.connections.get connectionId =
        some { connection with awaits := none, isFlushing := false }) := by
  unfold settleWrite at taken
  rw [known] at taken
  dsimp only at taken
  split at taken
  · cases taken
  · cases taken
  · rename_i impossible
    cases impossible
  · have stored : (broker.update connectionId { connection with awaits := none }).connections.get
        connectionId = some { connection with awaits := none } := OrderedMap.get_set_self _ _ _
    split at taken
    · rename_i opened
      cases taken
      obtain ⟨found, isFound, isOpen⟩ := (Option.any_eq_true _ _).mp opened
      have same := (find_eq_some isFound).2
      rw [stored] at same
      obtain rfl := Option.some.inj same
      have notClosed : connection.isClosed = false := by simpa using isOpen
      exact .inl ⟨notClosed, by rw [get_cleanupConnection isFound notClosed, if_pos rfl]⟩
    · rename_i notOpen
      cases taken
      refine .inr ⟨?_, OrderedMap.get_set_self _ _ _⟩
      by_contra isOpen
      have isOpen := Bool.eq_false_of_not_eq_true isOpen
      have member : connectionId ∈ broker.connectionsById :=
        (wired.live connectionId).mpr ⟨connection, known, isOpen⟩
      refine notOpen ?_
      have found : (broker.update connectionId { connection with awaits := none }).find
          connectionId = some { connection with awaits := none } := (if_pos member).trans stored
      rw [IsOpen, found]
      simp [isOpen]

end SseBroker

/-! ## Runs -/

/-- A broker, and for each connection the number of writes whose callback has been called. -/
structure WriteState where
  broker : SseBroker
  answered : ConnectionId → ℕ

namespace WriteState

inductive Action where
  | broker (action : SseBroker.Action)
  | callback (connectionId : ConnectionId) (error : Bool)
  | timeout (connectionId : ConnectionId)
  | skip (connectionId : ConnectionId)

def start (isUp : Bool) : WriteState := ⟨.start isUp, fun _ => 0⟩

/-- What the flush of a connection awaits. -/
def awaited (connectionId : ConnectionId) (s : WriteState) : Option PendingWrite :=
  (s.broker.connections.get connectionId).bind fun connection => connection.awaits

/-- A write of the connection is answered. -/
def answer (connectionId : ConnectionId) (s : WriteState) : ConnectionId → ℕ :=
  Function.update s.answered connectionId (s.answered connectionId + 1)

/-- The response calls the callback of a write. -/
def callback (connectionId : ConnectionId) (error : Bool) (s : WriteState) : Option WriteState :=
  match s.broker.connections.get connectionId with
  | none => none
  | some connection =>
      if s.answered connectionId < connection.response.written.length then
        if connection.awaits = some .written then
          (s.broker.settleWrite connectionId error).map fun broker =>
            ⟨broker, s.answer connectionId⟩
        else some { s with answered := s.answer connectionId }
      else none

/-- The timeout of a write fires before its callback. -/
def timeout (connectionId : ConnectionId) (s : WriteState) : Option WriteState :=
  if s.awaited connectionId = some .written then
    (s.broker.settleWrite connectionId true).map fun broker => { s with broker }
  else none

/-- A flush goes on after `writeFrame` had nothing to write. -/
def skip (connectionId : ConnectionId) (s : WriteState) : Option WriteState :=
  if s.awaited connectionId = some .skipped then
    (s.broker.settleWrite connectionId false).map fun broker => { s with broker }
  else none

def next {K : Type} (codec : JsonCodec K) (s : WriteState) : Action → Option WriteState
  | .broker (.settleWrite _ _) => none
  | .broker action => (s.broker.next codec action).map fun broker => { s with broker }
  | .callback connectionId error => s.callback connectionId error
  | .timeout connectionId => s.timeout connectionId
  | .skip connectionId => s.skip connectionId

/-- Nobody but the broker uses the response of the connection. -/
def OwnResponse (connectionId : ConnectionId) (s : WriteState) : Action → Prop
  | .broker (.endResponse other) => other ≠ connectionId
  | .broker (.registerConnection now input) =>
      connectionId = ⟨now, s.broker.nextConnectionId⟩ →
        input.response.writableEnded = false ∧ input.response.written = []
  | _ => True

instance (connectionId : ConnectionId) (s : WriteState) :
    (a : Action) → Decidable (OwnResponse connectionId s a)
  | .broker (.endResponse _) => inferInstanceAs (Decidable (_ ≠ _))
  | .broker (.registerConnection _ _) => inferInstanceAs (Decidable (_ → _))
  | .broker (.resumeRegistration _ _) | .broker (.cleanupConnection _ _)
  | .broker (.finishCleanup _) | .broker .closeAllConnections | .broker (.settleWrite _ _)
  | .broker (.keepalive _) | .broker (.message _ _) | .broker (.redis _) | .callback _ _
  | .timeout _ | .skip _ => isTrue trivial

/-! ## What is kept -/

/-- The connection, if there is one, is orderly. -/
structure Kept (connectionId : ConnectionId) (s : WriteState) : Prop where
  disposed : s.broker.Disposed
  unanswered : s.broker.connections.get connectionId = none → s.answered connectionId = 0
  orderly : ∀ connection, s.broker.connections.get connectionId = some connection →
    connection.Orderly (s.answered connectionId)

/-- A connection that is closed stays so, and nothing more is written to it. -/
def Frozen (connectionId : ConnectionId) (written : List String) (s : WriteState) : Prop :=
  ∃ connection, s.broker.connections.get connectionId = some connection ∧
    connection.isClosed = true ∧ connection.response.written = written

section Steps

variable {K : Type} {codec : JsonCodec K} {connectionId other : ConnectionId}
  {s s' : WriteState} {a : Action} {broker : SseBroker} {written : List String}

theorem orderly_ofInput {input : RegisterConnectionInput}
    (ended : input.response.writableEnded = false) (unused : input.response.written = []) :
    (SseConnection.ofInput input).Orderly 0 := by
  have order : (SseConnection.ofInput input).InOrder 0 :=
    ⟨ended, rfl, (by decide : (0 : ℤ) ≤ maxQueueBytes), Nat.zero_le _,
      fun _ member => (nomatch member),
      by simp [SseConnection.ofInput, unused],
      .inr ⟨rfl, rfl, rfl, by simp [SseConnection.ofInput, unused]⟩, 0, rfl, rfl⟩
  exact order.orderly

/-- The end of a write is a step of the broker. -/
theorem disposed_settleWrite {failed : Bool} (codec : JsonCodec K) (disposed : s.broker.Disposed)
    (taken : s.broker.settleWrite other failed = some broker) : broker.Disposed :=
  disposed.step (show s.broker.next codec (.settleWrite other failed) = some broker from taken)

/-- The end of a write of another connection, or a callback of one. -/
theorem Kept.of_get (kept : s.Kept connectionId) (disposed : s'.broker.Disposed)
    (get : s'.broker.connections.get connectionId = s.broker.connections.get connectionId)
    (answered : s'.answered connectionId = s.answered connectionId) : s'.Kept connectionId where
  disposed := disposed
  unanswered absent := answered.trans (kept.unanswered (get.symm.trans absent))
  orderly connection known := by
    rw [answered]
    exact kept.orderly connection (get.symm.trans known)

/-- A connection after the end of its write. -/
theorem Kept.of_orderly {connection : SseConnection} (disposed : s'.broker.Disposed)
    (known : s'.broker.connections.get connectionId = some connection)
    (orderly : connection.Orderly (s'.answered connectionId)) : s'.Kept connectionId where
  disposed := disposed
  unanswered absent := by
    rw [known] at absent
    cases absent
  orderly found same := by
    cases known.symm.trans same
    exact orderly

/-- What a failed write leaves of a connection. -/
theorem orderly_failed {answered answered' : ℕ} {connection : SseConnection}
    (disposed : s.broker.Disposed)
    (known : s.broker.connections.get connectionId = some connection)
    (orderly : connection.Orderly answered) (awaits : connection.awaits = some .written)
    (counted : answered' = answered ∨ answered' = answered + 1)
    (taken : s.broker.settleWrite connectionId true = some broker) :
    ∃ connection', broker.connections.get connectionId = some connection' ∧
      connection'.Orderly answered' := by
  have one := orderly.awaited awaits
  obtain ⟨-, after⟩ | ⟨isClosed, after⟩ :=
    SseBroker.get_settleWrite_failed disposed.wired known taken
  · refine ⟨_, after, orderly.closed.of_closed rfl ?_ ?_ nofun⟩
    · show answered' ≤ connection.response.written.length
      omega
    · show connection.response.written.length ≤ answered' + 1
      omega
  · exact ⟨_, after, orderly.of_closed isClosed (by omega) (by omega) nofun⟩

theorem Kept.callback {error : Bool} (codec : JsonCodec K) (kept : s.Kept connectionId)
    (taken : s.callback other error = some s') : s'.Kept connectionId := by
  unfold WriteState.callback at taken
  split at taken
  · cases taken
  rename_i connection known
  obtain ⟨outstanding, taken⟩ := Option.ite_none_right_eq_some.mp taken
  by_cases own : connectionId = other
  · subst own
    have orderly := kept.orderly connection known
    have counted : s.answer connectionId connectionId = s.answered connectionId + 1 :=
      Function.update_self ..
    split at taken
    · rename_i awaits
      obtain ⟨broker, settled, rfl⟩ := Option.map_eq_some_iff.mp taken
      have disposed := disposed_settleWrite codec kept.disposed settled
      cases error with
      | false =>
          refine .of_orderly disposed (SseBroker.get_settleWrite known settled) ?_
          show connection.resumeFlush.Orderly (s.answer connectionId connectionId)
          rw [counted]
          exact orderly.resumed awaits
      | true =>
          obtain ⟨connection', after, orderly'⟩ :=
            orderly_failed kept.disposed known orderly awaits (.inr counted) settled
          exact .of_orderly disposed after orderly'
    · rename_i late
      obtain rfl := Option.some.inj taken
      refine .of_orderly kept.disposed known ?_
      show connection.Orderly (s.answer connectionId connectionId)
      rw [counted]
      exact orderly.answeredLate late outstanding
  · have answered : s.answer other connectionId = s.answered connectionId :=
      Function.update_of_ne own ..
    split at taken
    · obtain ⟨broker, settled, rfl⟩ := Option.map_eq_some_iff.mp taken
      exact kept.of_get (disposed_settleWrite codec kept.disposed settled)
        (SseBroker.get_settleWrite_of_ne own settled) answered
    · obtain rfl := Option.some.inj taken
      exact kept.of_get kept.disposed rfl answered

theorem Kept.timeout (codec : JsonCodec K) (kept : s.Kept connectionId)
    (taken : s.timeout other = some s') : s'.Kept connectionId := by
  obtain ⟨awaited, taken⟩ := Option.ite_none_right_eq_some.mp taken
  obtain ⟨broker, settled, rfl⟩ := Option.map_eq_some_iff.mp taken
  have disposed := disposed_settleWrite codec kept.disposed settled
  by_cases own : connectionId = other
  · subst own
    obtain ⟨connection, known, awaits⟩ := Option.bind_eq_some_iff.mp awaited
    obtain ⟨connection', after, orderly⟩ := orderly_failed kept.disposed known
      (kept.orderly connection known) awaits (.inl rfl) settled
    exact .of_orderly disposed after orderly
  · exact kept.of_get disposed (SseBroker.get_settleWrite_of_ne own settled) rfl

theorem Kept.skip (codec : JsonCodec K) (kept : s.Kept connectionId)
    (taken : s.skip other = some s') : s'.Kept connectionId := by
  obtain ⟨awaited, taken⟩ := Option.ite_none_right_eq_some.mp taken
  obtain ⟨broker, settled, rfl⟩ := Option.map_eq_some_iff.mp taken
  have disposed := disposed_settleWrite codec kept.disposed settled
  by_cases own : connectionId = other
  · subst own
    obtain ⟨connection, known, awaits⟩ := Option.bind_eq_some_iff.mp awaited
    exact .of_orderly disposed (SseBroker.get_settleWrite known settled)
      ((kept.orderly connection known).skipped awaits).2
  · exact kept.of_get disposed (SseBroker.get_settleWrite_of_ne own settled) rfl

/-- A step of the broker other than the end of a write. -/
theorem next_broker {action : SseBroker.Action}
    (taken : next codec s (.broker action) = some s') :
    (∀ other failed, action ≠ .settleWrite other failed) ∧
      ∃ broker, s.broker.next codec action = some broker ∧ s' = { s with broker } := by
  cases action with
  | settleWrite => cases taken
  | registerConnection | resumeRegistration | cleanupConnection | finishCleanup
  | closeAllConnections | keepalive | endResponse | message | redis =>
      simp only [next] at taken
      obtain ⟨broker, moved, rfl⟩ := Option.map_eq_some_iff.mp taken
      exact ⟨nofun, broker, moved, rfl⟩

/-- **Every step keeps the connection orderly.** -/
theorem Kept.next (kept : s.Kept connectionId) (own : OwnResponse connectionId s a)
    (taken : next codec s a = some s') : s'.Kept connectionId := by
  cases a with
  | broker action =>
      obtain ⟨writing, broker, moved, rfl⟩ := next_broker taken
      have disposed := kept.disposed.step moved
      by_cases registering : ∃ now input, action = .registerConnection now input ∧
          connectionId = ⟨now, s.broker.nextConnectionId⟩
      · obtain ⟨now, input, rfl, new⟩ := registering
        obtain ⟨ended, unused⟩ := own new
        cases moved
        have unknown : s.broker.connections.get connectionId = none :=
          new ▸ kept.disposed.wired.get_eq_none now
        have stored : (s.broker.registerConnection now input).connections.get connectionId =
            some (SseConnection.ofInput input) := by
          rw [SseBroker.get_registerConnection, if_pos new]
        refine .of_orderly disposed stored ?_
        · show (SseConnection.ofInput input).Orderly (s.answered connectionId)
          rw [kept.unanswered unknown]
          exact orderly_ofInput ended unused
      · have ending : action ≠ .endResponse connectionId := by
          rintro rfl
          exact own rfl
        have evolves := SseBroker.evolves_next kept.disposed moved writing ending
          fun now input same new => registering ⟨now, input, same, new⟩
        cases known : s.broker.connections.get connectionId with
        | none => exact kept.of_get disposed ((evolves.absent known).trans known.symm) rfl
        | some connection =>
            obtain ⟨connection', known', changes⟩ := evolves.present connection known
            exact .of_orderly disposed known' ((kept.orderly connection known).changes changes)
  | callback other error => exact kept.callback codec taken
  | timeout other => exact kept.timeout codec taken
  | skip other => exact kept.skip codec taken

/-- The end of a write leaves a closed connection as it is. -/
theorem frozen_settleWrite {failed : Bool} (disposed : s.broker.Disposed)
    (frozen : s.Frozen connectionId written)
    (taken : s.broker.settleWrite other failed = some broker) :
    ∃ connection, broker.connections.get connectionId = some connection ∧
      connection.isClosed = true ∧ connection.response.written = written := by
  obtain ⟨connection, known, isClosed, same⟩ := frozen
  by_cases own : connectionId = other
  · subst own
    cases failed with
    | false =>
        refine ⟨_, SseBroker.get_settleWrite known taken, ?_⟩
        rw [SseConnection.resumeFlush, if_pos isClosed]
        exact ⟨isClosed, same⟩
    | true =>
        obtain ⟨isOpen, -⟩ | ⟨-, after⟩ :=
          SseBroker.get_settleWrite_failed disposed.wired known taken
        · rw [isClosed] at isOpen
          cases isOpen
        · exact ⟨_, after, isClosed, same⟩
  · exact ⟨connection, (SseBroker.get_settleWrite_of_ne own taken).trans known, isClosed, same⟩

/-- **No step writes to a closed connection.** -/
theorem Frozen.next (disposed : s.broker.Disposed) (frozen : s.Frozen connectionId written)
    (own : OwnResponse connectionId s a) (taken : WriteState.next codec s a = some s') :
    s'.Frozen connectionId written := by
  cases a with
  | broker action =>
      obtain ⟨connection, known, isClosed, same⟩ := frozen
      obtain ⟨writing, broker, moved, rfl⟩ := next_broker taken
      have ending : action ≠ .endResponse connectionId := by
        rintro rfl
        exact own rfl
      have evolves := SseBroker.evolves_next disposed moved writing ending
        fun now input _ new => by
          rw [new, disposed.wired.get_eq_none] at known
          cases known
      obtain ⟨connection', known', changes⟩ := evolves.present connection known
      obtain ⟨closed, kept⟩ := changes.frozen isClosed
      exact ⟨connection', known', closed, kept.trans same⟩
  | callback other error =>
      unfold WriteState.next callback at taken
      dsimp only at taken
      split at taken
      · cases taken
      obtain ⟨-, taken⟩ := Option.ite_none_right_eq_some.mp taken
      split at taken
      · obtain ⟨broker, settled, rfl⟩ := Option.map_eq_some_iff.mp taken
        exact frozen_settleWrite disposed frozen settled
      · obtain rfl := Option.some.inj taken
        exact frozen
  | timeout other =>
      obtain ⟨-, taken⟩ := Option.ite_none_right_eq_some.mp taken
      obtain ⟨broker, settled, rfl⟩ := Option.map_eq_some_iff.mp taken
      exact frozen_settleWrite disposed frozen settled
  | skip other =>
      obtain ⟨-, taken⟩ := Option.ite_none_right_eq_some.mp taken
      obtain ⟨broker, settled, rfl⟩ := Option.map_eq_some_iff.mp taken
      exact frozen_settleWrite disposed frozen settled

end Steps

end WriteState

/-! ## Whole runs -/

/-- What the queue of a connection guarantees. -/
structure QueueKept (answered : ℕ) (connection : SseConnection) : Prop where
  bytes : connection.isClosed = false →
    connection.queuedBytes = SseConnection.bytesOf connection.queue ∧
      connection.queuedBytes ≤ maxQueueBytes
  messages : connection.isClosed = false → connection.queue.length ≤ maxQueueMessages
  outstanding : answered ≤ connection.response.written.length ∧
    connection.response.written.length ≤ answered + 1
  flushing : connection.isClosed = false → connection.queue ≠ [] →
    connection.isFlushing = true ∧ connection.awaits = some .written
  inOrder : connection.response.written <+: connection.accepted
  numbered : connection.response.written.filterMap eventIdOf =
    List.range' 1 (connection.response.written.filterMap eventIdOf).length

theorem SseConnection.Orderly.queueKept {answered : ℕ} {connection : SseConnection}
    (orderly : connection.Orderly answered) : QueueKept answered connection where
  bytes isOpen := ⟨(orderly.inOrder isOpen).bytes, (orderly.inOrder isOpen).bounded⟩
  messages isOpen := (orderly.inOrder isOpen).short
  outstanding := ⟨orderly.atLeast, orderly.atMost⟩
  flushing isOpen filled := by
    obtain ⟨flushing, awaits, -⟩ | ⟨-, -, empty, -⟩ := (orderly.inOrder isOpen).flush
    · exact ⟨flushing, awaits⟩
    · exact absurd empty filled
  inOrder := orderly.written
  numbered := by
    obtain ⟨count, numbered⟩ := orderly.numbered
    exact range_of_prefix (numbered ▸ orderly.written.filterMap eventIdOf)

section Runs

variable {K : Type} {codec : JsonCodec K} {connectionId : ConnectionId} {isUp : Bool}
  {s : WriteState}

theorem kept_of_reaches (run : Reaches (WriteState.next codec)
    (WriteState.OwnResponse connectionId) (.start isUp) s) : s.Kept connectionId :=
  run.invariant ⟨.start isUp, fun _ => rfl, fun _ known => (nomatch known)⟩
    fun _ _ _ kept own taken => kept.next own taken

/-- **The write queue of a connection is kept in every run**, and after a cleanup no further
frame is written. -/
theorem write_queue_kept (run : Reaches (WriteState.next codec)
    (WriteState.OwnResponse connectionId) (.start isUp) s) {connection : SseConnection}
    (known : s.broker.connections.get connectionId = some connection) :
    QueueKept (s.answered connectionId) connection ∧
      (connection.isClosed = true → ∀ s', Reaches (WriteState.next codec)
        (WriteState.OwnResponse connectionId) s s' →
          ∃ connection', s'.broker.connections.get connectionId = some connection' ∧
            connection'.response.written = connection.response.written) := by
  refine ⟨((kept_of_reaches run).orderly connection known).queueKept, fun isClosed s' later => ?_⟩
  have frozen : s'.Frozen connectionId connection.response.written := by
    induction later with
    | start => exact ⟨connection, known, isClosed, rfl⟩
    | step earlier own taken ih =>
        exact ih.next (kept_of_reaches (run.trans earlier)).disposed own taken
  obtain ⟨connection', known', -, same⟩ := frozen
  exact ⟨connection', known', same⟩

end Runs

/-- The event that faction `f1` has entered a system. -/
def sampleEvent : WriteState.Action :=
  .broker (.message sampleTarget.channel (plainJsonCodec.stringify sampleTarget.payload.toJson))

/-- A client is sent two events, one of which waits for the other, and then it leaves. -/
theorem write_queue_kept_sample :
    (∃ (s : WriteState) (connection : SseConnection),
      s.broker.connections.get ⟨0, 1⟩ = some connection ∧
      (connection.isClosed = false ∧ connection.queue ≠ []) ∧
      QueueKept (s.answered ⟨0, 1⟩) connection) ∧
    ∃ (s : WriteState) (connection : SseConnection),
      s.broker.connections.get ⟨0, 1⟩ = some connection ∧
      (connection.isClosed = true ∧ connection.response.written.length = 2) ∧
      ∀ s', Reaches (WriteState.next plainJsonCodec) (WriteState.OwnResponse ⟨0, 1⟩) s s' →
        ∃ connection', s'.broker.connections.get ⟨0, 1⟩ = some connection' ∧
          connection'.response.written = connection.response.written := by
  constructor
  · obtain ⟨s, run, observed⟩ := exists_reachable_of_execute
      (admitted (WriteState.next plainJsonCodec) (WriteState.OwnResponse ⟨0, 1⟩)) (.start true)
      [.broker (.registerConnection 0 sampleInput), sampleEvent, sampleEvent]
      (fun s => (s.broker.connections.get ⟨0, 1⟩).any fun (connection : SseConnection) =>
        decide (connection.isClosed = false ∧ connection.queue ≠ [])) (by decide +kernel)
    obtain ⟨connection, known, waits⟩ := (Option.any_eq_true _ _).mp observed
    exact ⟨s, connection, known, of_decide_eq_true waits,
      (write_queue_kept (.of_admitted run) known).1⟩
  · obtain ⟨s, run, observed⟩ := exists_reachable_of_execute
      (admitted (WriteState.next plainJsonCodec) (WriteState.OwnResponse ⟨0, 1⟩)) (.start true)
      [.broker (.registerConnection 0 sampleInput), sampleEvent, sampleEvent, .callback ⟨0, 1⟩ false,
        .broker (.cleanupConnection ⟨0, 1⟩ .clientDisconnect)]
      (fun s => (s.broker.connections.get ⟨0, 1⟩).any fun (connection : SseConnection) =>
        decide (connection.isClosed = true ∧ connection.response.written.length = 2))
      (by decide +kernel)
    obtain ⟨connection, known, left⟩ := (Option.any_eq_true _ _).mp observed
    have closed := of_decide_eq_true left
    exact ⟨s, connection, known, closed,
      (write_queue_kept (.of_admitted run) known).2 closed.1⟩

end EliteHubVault
