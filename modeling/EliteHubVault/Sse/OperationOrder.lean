import EliteHubVault.Sse.DemandAccounting
import EliteHubVault.Sse.Disposal

/-!
# Increments end before decrements

The operations of a key end in the order in which they were queued, so the ticket that was
handed out first is the first to be settled. A cleanup takes its tickets after the registration
of its connection has taken its own: once the decrements of a cleanup have ended, the increments
of its registration have ended too (`InOrder.settled`).
-/

set_option autoImplicit false

namespace EliteHubVault

open Library

/-! ## The operations of a key -/

namespace KeyState

variable {key key' : KeyState}

/-- A turn of the chain ends one operation at most. -/
theorem remaining_le_of_next {action : KeyAction}
    (turn : action = .runNext ∨ action = .resolve ∨ action = .reject)
    (taken : key.next action = some key') :
    OperationChain.remaining ⟨key.running, key.queued⟩ ≤ key'.queued.length + 1 := by
  rcases turn with rfl | rfl | rfl
  · simp only [next] at taken
    split at taken
    · rename_i operation rest running queued
      cases taken
      simp [OperationChain.remaining, running, queued, queued_runOperation]
    · cases taken
  · simp only [next] at taken
    split at taken
    · rename_i command running
      obtain ⟨-, same⟩ := Option.ite_none_right_eq_some.mp taken
      cases same
      have queued : (key.resolved command.kind).queued = key.queued := by
        cases command.kind with
        | unsubscribe => rfl
        | subscribe =>
            simp only [resolved]
            split
            · rfl
            · exact queued_unsubscribeIfNeeded _
      rw [queued]
      simp [OperationChain.remaining, running, Nat.add_comm]
    · cases taken
  · simp only [next] at taken
    split at taken
    · rename_i command running
      cases taken
      simp [OperationChain.remaining, running, rejected, Nat.add_comm]
    · cases taken

/-- A new connection ends no operation. -/
theorem remaining_le_connected (key : KeyState) :
    OperationChain.remaining ⟨key.running, key.queued⟩ ≤
      OperationChain.remaining ⟨key.connected.running, key.connected.queued⟩ := by
  simp only [OperationChain.remaining, connected, List.length_append, Option.length_toList,
    Option.isSome_map]
  omega

end KeyState

namespace SseBroker

variable {broker broker' : SseBroker} {connectionId : ConnectionId}

section Operations

variable {eventType : RealtimeEventType} {routingKey : String}

/-- An operation that awaits nothing more is counted, for its own key. -/
theorem get_countSettled (manager : RedisSubscriptionManager)
    (settledOps : OrderedMap DemandKey ℕ) (demandKey other : DemandKey) :
    ((countSettled manager settledOps (some demandKey)).get other).getD 0 =
      (settledOps.get other).getD 0 +
        if other = demandKey ∧ (manager.chainOf demandKey).running = none then 1 else 0 := by
  simp only [countSettled, Option.isNone_iff_eq_none]
  by_cases ended : (manager.chainOf demandKey).running = none
  · rw [if_pos ended, OrderedMap.get_set]
    by_cases own : other = demandKey
    · subst own
      simp [ended]
    · simp [own]
  · simp [ended]

/-- No turn of a chain takes an operation back: one that has ended is counted. -/
theorem operationsOf_le_turn {demandKey : DemandKey} {action : KeyAction}
    (turn : action = .runNext ∨ action = .resolve ∨ action = .reject)
    {manager : RedisSubscriptionManager}
    (seen : (if getDemandKey eventType routingKey = demandKey then some action else none).elim
        (some (broker.redisSubscriptions.view eventType routingKey))
        (broker.redisSubscriptions.view eventType routingKey).next =
      some (manager.view eventType routingKey)) :
    broker.operationsOf (getDemandKey eventType routingKey) ≤
      operationsOf (getDemandKey eventType routingKey) { broker with
        redisSubscriptions := manager
        settledOps := countSettled manager broker.settledOps (some demandKey) } := by
  show _ ≤ ((countSettled _ _ _).get _).getD 0 + (manager.chainOf _).remaining
  rw [get_countSettled, operationsOf]
  by_cases own : getDemandKey eventType routingKey = demandKey
  · subst own
    rw [if_pos rfl, Option.elim_some] at seen
    have ended : (broker.redisSubscriptions.chainOf (getDemandKey eventType routingKey)).remaining ≤
        (manager.chainOf (getDemandKey eventType routingKey)).queued.length + 1 :=
      KeyState.remaining_le_of_next turn seen
    cases running : (manager.chainOf (getDemandKey eventType routingKey)).running with
    | none =>
        rw [if_pos ⟨rfl, rfl⟩, OperationChain.remaining.eq_def (manager.chainOf _), running]
        simp only [Option.toList_none, List.length_nil]
        omega
    | some command =>
        rw [if_neg (by simp), OperationChain.remaining.eq_def (manager.chainOf _), running]
        simp only [Option.toList_some, List.length_singleton]
        omega
  · rw [if_neg own, Option.elim_none, Option.some.injEq] at seen
    have running := congrArg KeyState.running seen
    have queued := congrArg KeyState.queued seen
    change (broker.redisSubscriptions.chainOf _).running = (manager.chainOf _).running at running
    change (broker.redisSubscriptions.chainOf _).queued = (manager.chainOf _).queued at queued
    rw [if_neg fun both => own both.1, OperationChain.remaining, running, queued]
    rfl

/-- What happens at the manager takes no operation back. -/
theorem operationsOf_le_redis {event : RedisEvent} (taken : broker.redis event = some broker')
    (demandKey : DemandKey) : broker.operationsOf demandKey ≤ broker'.operationsOf demandKey := by
  obtain ⟨eventType, routingKey, rfl⟩ := demandKey.exists_eq
  obtain ⟨manager, stepped, rfl⟩ := Option.map_eq_some_iff.mp taken
  have seen := @RedisSubscriptionManager.view_next eventType routingKey _ _ _ stepped
  cases event with
  | runNext demandKey => exact operationsOf_le_turn (.inl rfl) seen
  | resolve demandKey => exact operationsOf_le_turn (.inr (.inl rfl)) seen
  | reject demandKey => exact operationsOf_le_turn (.inr (.inr rfl)) seen
  | close =>
      cases stepped
      exact le_rfl
  | ready =>
      have connected : manager.view eventType routingKey =
          (broker.redisSubscriptions.view eventType routingKey).connected :=
        (Option.some.inj (Option.ite_none_left_eq_some.mp seen).2).symm
      refine Nat.add_le_add_left ?_ _
      show _ ≤ OperationChain.remaining ⟨(manager.view eventType routingKey).running,
        (manager.view eventType routingKey).queued⟩
      rw [connected]
      exact KeyState.remaining_le_connected (broker.redisSubscriptions.view eventType routingKey)

/-- Queue an operation of each key of a connection. -/
theorem operationsOf_foldl {connection : SseConnection} (nodup : connection.routingKeys.Nodup)
    (operation : DemandOperation) (demandKey : DemandKey)
    (queued : broker'.redisSubscriptions = connection.routingKeys.foldl (fun manager routingKey =>
      manager.runSerialized (getDemandKey connection.eventType routingKey) operation)
        broker.redisSubscriptions) (settled : broker'.settledOps = broker.settledOps) :
    broker'.operationsOf demandKey =
      broker.operationsOf demandKey + if demandKey ∈ connection.demandKeys then 1 else 0 := by
  obtain ⟨eventType, routingKey, rfl⟩ := demandKey.exists_eq
  have listed : getDemandKey eventType routingKey ∈ connection.demandKeys ↔
      connection.eventType = eventType ∧ routingKey ∈ connection.routingKeys := by
    constructor
    · intro member
      obtain ⟨otherKey, present, same⟩ := List.mem_map.mp member
      obtain ⟨rfl, rfl⟩ := getDemandKey_inj.mp same
      exact ⟨rfl, present⟩
    · rintro ⟨rfl, member⟩
      exact List.mem_map_of_mem member
  have viewed := @RedisSubscriptionManager.view_foldl_routingKeys eventType routingKey operation
    connection.eventType _ nodup broker.redisSubscriptions
  rw [← queued] at viewed
  have running := congrArg KeyState.running viewed
  have more := congrArg KeyState.queued viewed
  change (broker'.redisSubscriptions.chainOf _).running =
    (broker.redisSubscriptions.chainOf _).running at running
  change (broker'.redisSubscriptions.chainOf _).queued =
    (broker.redisSubscriptions.chainOf _).queued ++ _ at more
  unfold operationsOf OperationChain.remaining
  rw [settled, running, more, List.length_append]
  simp only [listed]
  split
  · simp [Nat.add_assoc]
  · simp

theorem operationsOf_cleanupConnection (wired : broker.Wired) {connection : SseConnection}
    {reason : SseCloseReason} {caller : CleanupCaller}
    (found : broker.find connectionId = some connection) (isOpen : connection.isClosed = false)
    (demandKey : DemandKey) :
    (broker.cleanupConnection connectionId reason caller).operationsOf demandKey =
      broker.operationsOf demandKey + if demandKey ∈ connection.demandKeys then 1 else 0 := by
  refine operationsOf_foldl (wired.routingKeys connectionId connection (find_eq_some found).2)
    .decrement demandKey ?_ ?_
  · rw [cleanupConnection_eq found isOpen]
    rfl
  · rw [cleanupConnection_eq found isOpen]

theorem operationsOf_registerConnection (now : ℕ) (input : RegisterConnectionInput)
    (demandKey : DemandKey) :
    (broker.registerConnection now input).operationsOf demandKey = broker.operationsOf demandKey +
      if demandKey ∈ (SseConnection.ofInput input).demandKeys then 1 else 0 :=
  operationsOf_foldl (by exact nodup_distinct _) .increment demandKey rfl rfl

end Operations

/-! ## Tickets in order -/

theorem demandKeys_ofTraffic {before after : SseConnection} (traffic : before.Traffic after) :
    after.demandKeys = before.demandKeys := by
  rw [SseConnection.demandKeys, traffic.eventType, traffic.routingKeys]
  rfl

/-- **A registration that awaits its demand took its tickets first**: they are for operations
that were queued, and a cleanup of its connection has a later one of each key. -/
structure InOrder (broker : SseBroker) : Prop where
  queued : ∀ connectionId tickets,
    broker.registrations.get connectionId = some (.awaitsDemand tickets) →
      ∃ connection, broker.connections.get connectionId = some connection ∧
        ∀ ticket ∈ tickets, ticket.demandKey ∈ connection.demandKeys ∧
          ticket.position < broker.operationsOf ticket.demandKey
  later : ∀ cleanup ∈ broker.cleanups, ∀ tickets,
    broker.registrations.get cleanup.connectionId = some (.awaitsDemand tickets) →
      ∀ ticket ∈ tickets, ∃ other ∈ cleanup.tickets,
        other.demandKey = ticket.demandKey ∧ ticket.position ≤ other.position

namespace InOrder

theorem start (isUp : Bool) : (SseBroker.start isUp).InOrder where
  queued _ _ awaits := by cases awaits
  later _ member := by cases member

/-- Steps that keep the keys of the connections, take no operation back and let no registration
await anew. -/
theorem of_kept (inOrder : broker.InOrder)
    (connections : ∀ connectionId connection, broker.connections.get connectionId =
      some connection → ∃ connection', broker'.connections.get connectionId = some connection' ∧
        connection'.demandKeys = connection.demandKeys)
    (operations : ∀ demandKey, broker.operationsOf demandKey ≤ broker'.operationsOf demandKey)
    (cleanups : ∀ cleanup ∈ broker'.cleanups, cleanup ∈ broker.cleanups)
    (awaiting : ∀ connectionId tickets,
      broker'.registrations.get connectionId = some (.awaitsDemand tickets) →
        broker.registrations.get connectionId = some (.awaitsDemand tickets)) :
    broker'.InOrder where
  queued connectionId tickets awaits := by
    obtain ⟨connection, known, queued⟩ :=
      inOrder.queued connectionId tickets (awaiting connectionId tickets awaits)
    obtain ⟨connection', known', same⟩ := connections connectionId connection known
    refine ⟨connection', known', fun ticket member => ?_⟩
    obtain ⟨listed, position⟩ := queued ticket member
    exact ⟨same ▸ listed, position.trans_le (operations ticket.demandKey)⟩
  later cleanup member tickets awaits :=
    inOrder.later cleanup (cleanups cleanup member) tickets (awaiting _ tickets awaits)

theorem of_sameClients (inOrder : broker.InOrder) (same : SameClients broker broker')
    (operations : ∀ demandKey, broker'.operationsOf demandKey = broker.operationsOf demandKey)
    (cleanups : broker'.cleanups = broker.cleanups)
    (registrations : broker'.registrations = broker.registrations) : broker'.InOrder := by
  refine inOrder.of_kept (fun connectionId connection known => ?_) (fun key => (operations key).ge)
    (fun _ member => cleanups ▸ member) fun _ _ awaits => registrations ▸ awaits
  obtain ⟨connection', known', traffic⟩ := same.forth connectionId connection known
  exact ⟨connection', known', demandKeys_ofTraffic traffic⟩

/-- The tickets of a new cleanup are later than those of the registration. -/
theorem cleanup (inOrder : broker.InOrder) (wired : broker.Wired) {connection : SseConnection}
    (found : broker.find connectionId = some connection) (isOpen : connection.isClosed = false)
    (reason : SseCloseReason) (caller : CleanupCaller) :
    (broker.cleanupConnection connectionId reason caller).InOrder := by
  have known := (find_eq_some found).2
  have operations : ∀ demandKey, broker.operationsOf demandKey ≤
      (broker.cleanupConnection connectionId reason caller).operationsOf demandKey := by
    intro demandKey
    rw [operationsOf_cleanupConnection wired found isOpen]
    exact Nat.le_add_right _ _
  have registrations := registrations_cleanupConnection connectionId reason caller broker
  refine ⟨fun other tickets awaits => ?_, fun pending member tickets awaits => ?_⟩
  · rw [registrations] at awaits
    obtain ⟨stored, present, queued⟩ := inOrder.queued other tickets awaits
    have moved : ∀ ticket ∈ tickets, ticket.demandKey ∈ stored.demandKeys ∧ ticket.position <
        (broker.cleanupConnection connectionId reason caller).operationsOf ticket.demandKey :=
      fun ticket listed => ⟨(queued ticket listed).1,
        (queued ticket listed).2.trans_le (operations ticket.demandKey)⟩
    rw [get_cleanupConnection found isOpen]
    split
    · rename_i own
      subst own
      cases known.symm.trans present
      exact ⟨connection.closed, rfl, moved⟩
    · exact ⟨stored, present, moved⟩
  · rw [registrations] at awaits
    rw [cleanupConnection_eq found isOpen] at member
    obtain old | new := List.mem_append.mp member
    · exact inOrder.later pending old tickets awaits
    · obtain rfl := List.mem_singleton.mp new
      intro ticket listed
      obtain ⟨stored, present, queued⟩ := inOrder.queued connectionId tickets awaits
      cases known.symm.trans present
      obtain ⟨own, position⟩ := queued ticket listed
      exact ⟨⟨ticket.demandKey, broker.operationsOf ticket.demandKey⟩,
        List.mem_map_of_mem own, rfl, position.le⟩

/-- A new connection has no cleanup, and its tickets are for the operations that it queues. -/
theorem register (inOrder : broker.InOrder) (disposed : broker.Disposed) (now : ℕ)
    (input : RegisterConnectionInput) : (broker.registerConnection now input).InOrder := by
  have fresh := disposed.wired.get_eq_none now
  refine ⟨fun other tickets awaits => ?_, fun pending member tickets awaits => ?_⟩
  · have set : (broker.registrations.set ⟨now, broker.nextConnectionId⟩ (.awaitsDemand
        (broker.ticketsFor (SseConnection.ofInput input)))).get other =
          some (.awaitsDemand tickets) := awaits
    rw [OrderedMap.get_set] at set
    rw [get_registerConnection]
    split at set
    · rename_i own
      rw [if_pos own]
      cases set
      refine ⟨_, rfl, fun ticket listed => ?_⟩
      obtain ⟨demandKey, asked, rfl⟩ := List.mem_map.mp listed
      refine ⟨asked, ?_⟩
      rw [operationsOf_registerConnection, if_pos asked]
      exact Nat.lt_succ_self _
    · rename_i different
      rw [if_neg different]
      obtain ⟨stored, present, queued⟩ := inOrder.queued other tickets set
      refine ⟨stored, present, fun ticket listed => ⟨(queued ticket listed).1, ?_⟩⟩
      rw [operationsOf_registerConnection]
      exact (queued ticket listed).2.trans_le (Nat.le_add_right _ _)
  · have different : pending.connectionId ≠ ⟨now, broker.nextConnectionId⟩ := by
      intro own
      obtain ⟨connection, known, -⟩ := disposed.cleanups pending member
      rw [own, fresh] at known
      cases known
    refine inOrder.later pending member tickets ?_
    rwa [← OrderedMap.get_set_of_ne broker.registrations _ different]

theorem touches (inOrder : broker.InOrder) (wired : broker.Wired)
    (touched : Touches broker broker') : broker'.InOrder := by
  have both : broker'.Wired ∧ broker'.InOrder := by
    induction touched with
    | refl => exact ⟨wired, inOrder⟩
    | tail _ touched ih =>
        obtain ⟨wired, inOrder⟩ := ih
        refine ⟨wired.touch touched, ?_⟩
        cases touched with
        | traffic change traffic =>
            exact inOrder.of_sameClients (.of_traffic traffic) (fun _ => rfl) rfl rfl
        | update known traffic =>
            exact inOrder.of_sameClients (.of_update known traffic) (fun _ => rfl) rfl rfl
        | cleanup found isOpen => exact inOrder.cleanup wired found isOpen _ _
        | book callbacks kept phases awaiting =>
            exact inOrder.of_kept (fun _ connection known => ⟨connection, known, rfl⟩)
              (fun _ => le_rfl) kept awaiting
  exact both.2

/-- **Every step keeps the tickets in order.** -/
theorem step {K : Type} {codec : JsonCodec K} {action : Action} (inOrder : broker.InOrder)
    (disposed : broker.Disposed) (taken : broker.next codec action = some broker') :
    broker'.InOrder := by
  rcases disposed.wired.step_cases taken with ⟨now, input, -, rfl⟩ | touched | ⟨event, -, taken⟩
  · exact inOrder.register disposed now input
  · exact inOrder.touches disposed.wired touched
  · have operations := operationsOf_le_redis taken
    obtain ⟨manager, -, rfl⟩ := Option.map_eq_some_iff.mp taken
    exact inOrder.of_kept (fun _ connection known => ⟨connection, known, rfl⟩) operations
      (fun _ member => member) fun _ _ awaits => awaits

/-- **When the decrements of a cleanup have ended, so have the increments of the registration.** -/
theorem settled (inOrder : broker.InOrder) {cleanup : PendingCleanup}
    (member : cleanup ∈ broker.cleanups) (ended : broker.Settled cleanup.tickets)
    {tickets : List Ticket}
    (awaits : broker.registrations.get cleanup.connectionId = some (.awaitsDemand tickets)) :
    broker.Settled tickets := by
  intro ticket listed
  obtain ⟨other, present, same, position⟩ := inOrder.later cleanup member tickets awaits ticket listed
  have ended := ended other present
  rw [same] at ended
  exact position.trans_lt ended

end InOrder

end SseBroker

end EliteHubVault
