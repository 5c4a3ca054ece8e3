import EliteHubVault.Sse.Keepalives
import EliteHubVault.Sse.OperationOrder

/-!
# The broker and the stop of its subscriptions

`closeAllConnections` awaits its cleanups and then stops the subscription manager. The stop takes
the listeners off the Redis client, forgets demand and states and clears the map of the promise
chains. It cancels no operation: what was queued runs on beside the chains that later calls
start, and who awaits it goes on when it has ended.

As long as every registration ends on an open connection whose queue has room for the frames
that greet it, no closed connection has a keepalive interval and no connection is reported as
opened after it was reported as closed; the first registration that ends otherwise leaves an
interval (`closed_connections_keep_nothing_alive`). Until the stop the reports are in order
whatever the registrations end on, since increments end before decrements. After it a cleanup no
longer waits for the increments of its registration (`late_registration_leaks`).
-/

set_option autoImplicit false

namespace EliteHubVault

open Library

/-! ## Stopped subscriptions -/

/-- `stop`, up to the `quit` of the client. -/
def RedisSubscriptionManager.stop (manager : RedisSubscriptionManager) :
    RedisSubscriptionManager :=
  { manager with
    demandCount := .empty
    subscriptionStateByDemandKey := .empty
    subscriptionOpByDemandKey := .empty }

/-- The tickets that a registration awaits. -/
def SseBroker.awaitedBy (connectionId : ConnectionId) (broker : SseBroker) : List Ticket :=
  match broker.registrations.get connectionId with
  | some (.awaitsDemand tickets) => tickets
  | _ => []

/-- What a stop leaves behind: the promise chains that were in the map, and how many operations
of each key had been queued by then. -/
structure StoppedSubscriptions where
  chains : OrderedMap DemandKey OperationChain
  operations : OrderedMap DemandKey ℕ

namespace StoppedSubscriptions

/-- The ticket is not for an operation of the chains that still has to end. -/
def HasEnded (stopped : StoppedSubscriptions) (ticket : Ticket) : Prop :=
  (stopped.operations.get ticket.demandKey).getD 0 ≤ ticket.position ∨
    ticket.position + ((stopped.chains.get ticket.demandKey).getD ⟨none, []⟩).remaining <
      (stopped.operations.get ticket.demandKey).getD 0

instance (stopped : StoppedSubscriptions) (ticket : Ticket) :
    Decidable (stopped.HasEnded ticket) := inferInstanceAs (Decidable (_ ∨ _))

/-- A turn of one of the chains. It works on the demand and the states that the manager has. -/
def turn (event : SseBroker.RedisEvent) (manager : RedisSubscriptionManager)
    (stopped : StoppedSubscriptions) : Option (StoppedSubscriptions × RedisSubscriptionManager) :=
  match event with
  | .close | .ready => none
  | .runNext _ | .resolve _ | .reject _ =>
      ({ manager with subscriptionOpByDemandKey := stopped.chains }.next event.action).map
        fun (after : RedisSubscriptionManager) =>
          ({ stopped with chains := after.subscriptionOpByDemandKey },
            { after with subscriptionOpByDemandKey := manager.subscriptionOpByDemandKey })

/-- A step of the broker after the stop. No listener hears the client, and what was queued
before the stop must have ended as well. -/
def brokerNext {K : Type} (codec : JsonCodec K) (broker : SseBroker)
    (stopped : StoppedSubscriptions) : SseBroker.Action → Option SseBroker
  | .message _ _ => none
  | .redis .close =>
      some { broker with redisSubscriptions := broker.redisSubscriptions.loseConnection }
  | .redis .ready =>
      if broker.redisSubscriptions.subscriber.isUp then none
      else some { broker with redisSubscriptions := broker.redisSubscriptions.connect }
  | .resumeRegistration connectionId false =>
      if ∀ ticket ∈ broker.awaitedBy connectionId, stopped.HasEnded ticket then
        broker.next codec (.resumeRegistration connectionId false)
      else none
  | .finishCleanup index =>
      if ∀ cleanup ∈ broker.cleanups[index]?, ∀ ticket ∈ cleanup.tickets,
          stopped.HasEnded ticket then
        broker.next codec (.finishCleanup index)
      else none
  | action => broker.next codec action

end StoppedSubscriptions

/-! ## State and steps -/

/-- The broker, with the connections of each call of `closeAllConnections` that awaits its
cleanups, and what is left of the subscriptions if they are stopped. -/
structure SseLifetime where
  broker : SseBroker
  closing : List (List ConnectionId)
  stopped : Option StoppedSubscriptions

namespace SseLifetime

def start (isUp : Bool) : SseLifetime := ⟨.start isUp, [], none⟩

/-- The end of a call of `closeAllConnections`. The subscriptions are stopped once. -/
def stop (index : ℕ) (state : SseLifetime) : Option SseLifetime :=
  match state.closing[index]? with
  | none => none
  | some connectionIds =>
      if ∃ cleanup ∈ state.broker.cleanups, cleanup.connectionId ∈ connectionIds then none
      else
        let closing := state.closing.eraseIdx index
        match state.stopped with
        | some _ => some { state with closing }
        | none =>
            let manager := state.broker.redisSubscriptions
            let operations := state.broker.settledOps.setAll
              manager.subscriptionOpByDemandKey.keys fun demandKey =>
                state.broker.operationsOf demandKey
            some {
              broker := { state.broker with
                redisSubscriptions := manager.stop
                settledOps := operations }
              closing
              stopped := some ⟨manager.subscriptionOpByDemandKey, operations⟩ }

inductive Action where
  | broker (action : SseBroker.Action)
  | stop (index : ℕ)
  | detached (event : SseBroker.RedisEvent)

def next {K : Type} (codec : JsonCodec K) (state : SseLifetime) : Action → Option SseLifetime
  | .broker action =>
      let after := match state.stopped with
        | none => state.broker.next codec action
        | some stopped => stopped.brokerNext codec state.broker action
      after.map fun broker => { state with
        broker
        closing := match action with
          | .closeAllConnections => state.closing ++ [state.broker.connectionsById]
          | _ => state.closing }
  | .stop index => state.stop index
  | .detached event =>
      match state.stopped with
      | none => none
      | some stopped =>
          (stopped.turn event state.broker.redisSubscriptions).map fun (stopped, manager) =>
            { state with
              broker := { state.broker with redisSubscriptions := manager }
              stopped := some stopped }

variable {K : Type} {codec : JsonCodec K} {state state' : SseLifetime}

/-- The second broker differs from the first in its subscriptions only. -/
def Beside (before after : SseBroker) : Prop :=
  ∃ manager settledOps, after = { before with redisSubscriptions := manager, settledOps }

/-- The step ends no registration, or one whose connection takes its greeting. -/
def OpensOpen (state : SseLifetime) : Action → Prop
  | .broker action => state.broker.OpensOpen action
  | .stop _ | .detached _ => True

instance (state : SseLifetime) : (action : Action) → Decidable (state.OpensOpen action)
  | .broker action => inferInstanceAs (Decidable (state.broker.OpensOpen action))
  | .stop _ | .detached _ => isTrue trivial

/-- A registration whose increments have ended goes on before the cleanup of its connection
does, since its promises are settled first. -/
def InTurn (state : SseLifetime) : Action → Prop
  | .broker (.finishCleanup index) =>
      ∀ cleanup ∈ state.broker.cleanups[index]?, ∀ tickets,
        state.broker.registrations.get cleanup.connectionId = some (.awaitsDemand tickets) →
          ¬ state.broker.Settled tickets
  | _ => True

/-! ## What a step is to the broker -/

/-- A step that the broker takes after the stop is one that it takes before, or an event of the
connection that nobody hears. -/
theorem brokerNext_cases {stopped : StoppedSubscriptions} {broker broker' : SseBroker}
    {action : SseBroker.Action} (taken : stopped.brokerNext codec broker action = some broker') :
    broker.next codec action = some broker' ∨ Beside broker broker' ∧ broker.OpensOpen action := by
  unfold StoppedSubscriptions.brokerNext at taken
  split at taken
  · cases taken
  · cases taken
    exact .inr ⟨⟨_, _, rfl⟩, trivial⟩
  · obtain ⟨-, same⟩ := Option.ite_none_left_eq_some.mp taken
    cases same
    exact .inr ⟨⟨_, _, rfl⟩, trivial⟩
  · exact .inl (Option.ite_none_right_eq_some.mp taken).2
  · exact .inl (Option.ite_none_right_eq_some.mp taken).2
  · exact .inl taken

/-- The stop changes nothing of the broker but its subscriptions. -/
theorem beside_of_stop {index : ℕ} (taken : state.stop index = some state') :
    Beside state.broker state'.broker ∧ state'.stopped.isSome := by
  unfold stop at taken
  split at taken
  · cases taken
  · split at taken
    · cases taken
    · dsimp only at taken
      split at taken
      · rename_i stopped known
        cases taken
        exact ⟨⟨_, _, rfl⟩, known ▸ rfl⟩
      · cases taken
        exact ⟨⟨_, _, rfl⟩, rfl⟩

/-- **A step is one of the broker, or happens beside it.** -/
theorem next_cases {action : Action} (taken : state.next codec action = some state') :
    (∃ own, action = .broker own ∧ state.broker.next codec own = some state'.broker ∧
      state'.stopped = state.stopped) ∨
    Beside state.broker state'.broker ∧ state'.stopped.isSome ∧ state.OpensOpen action := by
  cases action with
  | broker action =>
      obtain ⟨broker, stepped, rfl⟩ := Option.map_eq_some_iff.mp taken
      split at stepped
      · exact .inl ⟨action, rfl, stepped, rfl⟩
      · rename_i stopped known
        obtain own | ⟨beside, opens⟩ := brokerNext_cases stepped
        · exact .inl ⟨action, rfl, own, rfl⟩
        · exact .inr ⟨beside, Option.isSome_of_eq_some known, opens⟩
  | stop index =>
      obtain ⟨beside, stopped⟩ := beside_of_stop taken
      exact .inr ⟨beside, stopped, trivial⟩
  | detached event =>
      unfold next at taken
      dsimp only at taken
      split at taken
      · cases taken
      · obtain ⟨result, -, rfl⟩ := Option.map_eq_some_iff.mp taken
        exact .inr ⟨⟨_, _, rfl⟩, rfl, trivial⟩

theorem Beside.disposed {broker broker' : SseBroker} (beside : Beside broker broker')
    (disposed : broker.Disposed) : broker'.Disposed := by
  obtain ⟨manager, settledOps, rfl⟩ := beside
  obtain ⟨⟨live, nodup, indexed, numbered, routingKeys⟩, cleanups, known, thrown⟩ := disposed
  exact ⟨⟨live, nodup, indexed, numbered, routingKeys⟩, cleanups, known, thrown⟩

/-! ## Runs -/

/-- What holds in every run, whatever its registrations end on. -/
structure Kept (broker : SseBroker) : Prop where
  disposed : broker.Disposed
  tidy : broker.All SseConnection.Tidy
  reports : broker.ReportsClosed

theorem Kept.beside {broker broker' : SseBroker} (kept : Kept broker)
    (beside : Beside broker broker') : Kept broker' := by
  refine ⟨beside.disposed kept.disposed, ?_, ?_⟩
  · obtain ⟨manager, settledOps, rfl⟩ := beside
    exact kept.tidy
  · obtain ⟨manager, settledOps, rfl⟩ := beside
    exact kept.reports

theorem Kept.own {broker broker' : SseBroker} {action : SseBroker.Action} (kept : Kept broker)
    (taken : broker.next codec action = some broker') : Kept broker' where
  disposed := kept.disposed.step taken
  tidy := SseBroker.tidy_next kept.disposed kept.tidy taken
  reports := kept.reports.next kept.disposed taken

theorem kept_of_reaches {guard : SseLifetime → Action → Prop} {isUp : Bool}
    (run : Reaches (next codec) guard (start isUp) state) : Kept state.broker := by
  induction run with
  | start =>
      refine ⟨.start isUp, fun _ _ known => ?_, fun _ _ member => ?_⟩
      · cases known
      · cases member
  | step _ _ taken ih =>
      obtain ⟨own, -, stepped, -⟩ | ⟨beside, -⟩ := next_cases taken
      · exact ih.own stepped
      · exact ih.beside beside

/-- A step whose registration takes its greeting keeps nothing alive. -/
theorem nothingAlive_own {broker broker' : SseBroker} {action : SseBroker.Action}
    (alive : broker.NothingAlive) (kept : Kept broker) (opens : broker.OpensOpen action)
    (taken : broker.next codec action = some broker') : broker'.NothingAlive := by
  refine ⟨SseBroker.silent_next kept.disposed alive.silent opens taken, ?_⟩
  refine alive.ordered.next (fun connectionId tickets resumes awaits reason member => ?_) taken
  subst resumes
  obtain ⟨connection, known, isClosed⟩ := kept.reports connectionId reason member
  rw [(opens connection known).1] at isClosed
  cases isClosed

theorem nothingAlive_beside {broker broker' : SseBroker} (alive : broker.NothingAlive)
    (beside : Beside broker broker') : broker'.NothingAlive := by
  obtain ⟨manager, settledOps, rfl⟩ := beside
  exact ⟨alive.silent, alive.ordered⟩

theorem nothingAlive_next {action : Action} (alive : state.broker.NothingAlive)
    (kept : Kept state.broker) (opens : state.OpensOpen action)
    (taken : state.next codec action = some state') : state'.broker.NothingAlive := by
  obtain ⟨own, rfl, stepped, -⟩ | ⟨beside, -⟩ := next_cases taken
  · exact nothingAlive_own alive kept opens stepped
  · exact nothingAlive_beside alive beside

theorem nothingAlive_of_reaches {isUp : Bool}
    (run : Reaches (next codec) OpensOpen (start isUp) state) : state.broker.NothingAlive := by
  induction run with
  | start =>
      refine ⟨fun _ _ known => ?_, List.Pairwise.nil⟩
      cases known
  | step earlier opens taken ih => exact nothingAlive_next ih (kept_of_reaches earlier) opens taken

/-- The reports are in order, and so are the tickets that decide about the next ones. -/
structure Ordered (broker : SseBroker) : Prop where
  reports : SseBroker.OpenedFirst broker.callbacks
  last : broker.ReportsLast
  tickets : broker.InOrder

/-- **Until the stop a cleanup ends after the registration of its connection.** -/
theorem ordered_of_reaches {isUp : Bool} (run : Reaches (next codec) InTurn (start isUp) state)
    (runs : state.stopped = none) : Ordered state.broker := by
  induction run with
  | start =>
      refine ⟨List.Pairwise.nil, fun _ _ member => ?_, .start isUp⟩
      cases member
  | @step state state' action earlier inTurn taken ih =>
      obtain ⟨own, rfl, stepped, same⟩ | ⟨-, stopped, -⟩ := next_cases taken
      · obtain ⟨reports, last, tickets⟩ := ih (same.symm.trans runs)
        have kept := kept_of_reaches earlier
        refine ⟨reports.next (fun connectionId tickets _ awaits reason member => ?_) stepped,
          last.next kept.disposed kept.reports (fun index cleanup finishes found ended later awaits =>
            ?_) stepped, tickets.step kept.disposed stepped⟩
        · exact last connectionId reason member tickets awaits
        · subst finishes
          exact inTurn cleanup found later awaits
            (tickets.settled (List.mem_of_getElem? found) ended awaits)
      · rw [runs] at stopped
        cases stopped

/-- **A closed connection keeps nothing alive** as long as every registration that ends well ends
on an open connection with room for its greeting: then a closed connection has no keepalive
interval, and no connection is reported as opened after it was reported as closed. The first
registration that ends otherwise leaks an interval. Until the subscriptions are stopped the
reports are in order in any case. -/
theorem closed_connections_keep_nothing_alive (isUp : Bool) :
    (∀ state, Reaches (next codec) OpensOpen (start isUp) state →
      state.broker.NothingAlive ∧ ∀ action state', state.next codec action = some state' →
        (state'.broker.NothingAlive ↔ state.OpensOpen action)) ∧
    ∀ state, Reaches (next codec) InTurn (start isUp) state → state.stopped = none →
      SseBroker.OpenedFirst state.broker.callbacks := by
  refine ⟨fun state run => ?_, fun state run runs => (ordered_of_reaches run runs).reports⟩
  have alive := nothingAlive_of_reaches run
  have kept := kept_of_reaches run
  refine ⟨alive, fun action state' taken => ⟨fun still => ?_, fun opens => ?_⟩⟩
  · obtain ⟨own, rfl, stepped, -⟩ | ⟨-, -, opens⟩ := next_cases taken
    · by_contra closed
      exact SseBroker.leaks_of_not_opensOpen kept.disposed kept.tidy stepped closed still.silent
    · exact opens
  · exact nothingAlive_next alive kept opens taken

/-- A client registers, is greeted and is sent away when the server shuts down. -/
theorem closed_connections_keep_nothing_alive_sample : ∃ state : SseLifetime,
    state.stopped.isSome ∧ (∃ connection, state.broker.connections.get ⟨0, 1⟩ = some connection ∧
      connection.isClosed = true) ∧
      state.broker.callbacks.length = 2 ∧ state.broker.NothingAlive := by
  obtain ⟨state, reached, facts⟩ := exists_reachable_of_execute
    (admitted (next plainJsonCodec) OpensOpen) (start true)
    [.broker (.registerConnection 0 sampleInput),
      .broker (.redis (.runNext (getDemandKey .factionPresenceChanged "f1"))),
      .broker (.redis (.resolve (getDemandKey .factionPresenceChanged "f1"))),
      .broker (.resumeRegistration ⟨0, 1⟩ false), .broker .closeAllConnections,
      .broker (.redis (.runNext (getDemandKey .factionPresenceChanged "f1"))),
      .broker (.redis (.resolve (getDemandKey .factionPresenceChanged "f1"))),
      .broker (.finishCleanup 0), .stop 0]
    (fun state => state.stopped.isSome ∧
      (state.broker.connections.get ⟨0, 1⟩).any (fun connection => connection.isClosed) ∧
      state.broker.callbacks.length = 2)
    (by decide +kernel)
  obtain ⟨stopped, closed, reports⟩ := of_decide_eq_true facts
  obtain ⟨connection, known, isClosed⟩ := (Option.any_eq_true _ _).mp closed
  exact ⟨state, stopped, ⟨connection, known, isClosed⟩, reports,
    ((closed_connections_keep_nothing_alive true).1 state (Reaches.of_admitted reached)).1⟩

/-- **A registration that ends late is greeted as if its client were there.** A client leaves
while its registration awaits the subscription: its interval is started after it was closed. A
client that comes during the shutdown and leaves after it is even reported as opened after it
was reported as closed. -/
theorem late_registration_leaks :
    (¬ ∀ state, Reachable (next plainJsonCodec) (start true) state →
      ∀ connectionId connection, state.broker.connections.get connectionId = some connection →
        connection.isClosed = true → connection.heartbeat = false) ∧
    ¬ ∀ state, Reachable (next plainJsonCodec) (start true) state →
      SseBroker.OpenedFirst state.broker.callbacks := by
  constructor
  · intro silent
    obtain ⟨state, reached, facts⟩ := exists_reachable_of_execute (next plainJsonCodec) (start true)
      [.broker (.registerConnection 0 sampleInput),
        .broker (.cleanupConnection ⟨0, 1⟩ .clientDisconnect),
        .broker (.redis (.runNext (getDemandKey .factionPresenceChanged "f1"))),
        .broker (.redis (.resolve (getDemandKey .factionPresenceChanged "f1"))),
        .broker (.resumeRegistration ⟨0, 1⟩ false)]
      (fun state => (state.broker.connections.get ⟨0, 1⟩).any fun connection =>
        connection.isClosed && connection.heartbeat)
      (by decide +kernel)
    obtain ⟨connection, known, leaks⟩ := (Option.any_eq_true _ _).mp facts
    obtain ⟨isClosed, heartbeat⟩ := (Bool.and_eq_true _ _).mp leaks
    rw [silent state reached _ _ known isClosed] at heartbeat
    cases heartbeat
  · intro ordered
    obtain ⟨state, reached, facts⟩ := exists_reachable_of_execute (next plainJsonCodec) (start true)
      [.broker (.registerConnection 0 sampleInput), .broker .closeAllConnections,
        .broker (.registerConnection 0 sampleInput),
        .broker (.redis (.runNext (getDemandKey .factionPresenceChanged "f1"))),
        .broker (.redis (.resolve (getDemandKey .factionPresenceChanged "f1"))),
        .broker (.resumeRegistration ⟨0, 1⟩ false),
        .broker (.redis (.runNext (getDemandKey .factionPresenceChanged "f1"))),
        .broker (.redis (.resolve (getDemandKey .factionPresenceChanged "f1"))),
        .broker (.redis (.runNext (getDemandKey .factionPresenceChanged "f1"))),
        .broker (.finishCleanup 0), .stop 0,
        .broker (.cleanupConnection ⟨0, 2⟩ .clientDisconnect),
        .broker (.redis (.runNext (getDemandKey .factionPresenceChanged "f1"))),
        .broker (.finishCleanup 0),
        .detached (.resolve (getDemandKey .factionPresenceChanged "f1")),
        .detached (.reject (getDemandKey .factionPresenceChanged "f1")),
        .broker (.resumeRegistration ⟨0, 2⟩ false)]
      (fun state => state.broker.callbacks.drop 2 =
        [.onConnectionClosed ⟨0, 2⟩ .clientDisconnect, .onConnectionOpened ⟨0, 2⟩])
      (by decide +kernel)
    have late := (ordered state reached).sublist (List.drop_sublist 2 _)
    rw [of_decide_eq_true facts] at late
    have reported := List.rel_of_pairwise_cons late (List.mem_singleton_self _)
    exact reported _ _ rfl rfl

end SseLifetime

end EliteHubVault
