import EliteHubVault.Sse.DemandAccounting

/-!
# Steady keys

A key of an open connection that was once subscribed stays subscribed while the connection to
Redis is up and the connection is open: other clients come and go, but their operations never
take the demand to zero, and an operation on a subscribed key with demand issues no command.
`KeyState.Steady` is the invariant, with the demand that is left before each queued operation.
-/

set_option autoImplicit false

namespace EliteHubVault

open Library

/-! ## The machine of one key -/

namespace KeyState

variable {key key' : KeyState}

/-- **The key is subscribed, and no queued operation takes its demand to zero.** -/
structure Steady (key : KeyState) : Prop where
  isUp : key.isUp = true
  isLive : key.isLive = true
  subscribed : key.state = some .subscribed
  running : key.running = none
  enough : ∀ n, 0 < key.amount + ((key.queued.take n).map DemandOperation.net).sum

namespace Steady

/-- A sound key that is demanded and at rest is steady, if no subscribe has failed. -/
theorem of_sound (sound : key.Sound) (up : key.isUp = true) (running : key.running = none)
    (queued : key.queued = []) (accepted : key.hasFailed = false) (demanded : 0 < key.amount) :
    key.Steady := by
  have subscribed : key.state = some .subscribed := by
    by_contra missing
    have known := (amount_pos_iff sound.positive).mp demanded
    obtain waiting | failed := sound.reconciled up known running missing
    · rw [queued] at waiting
      cases waiting
    · cases failed.symm.trans accepted
  refine ⟨up, (sound.subscribed subscribed).2, subscribed, running, fun n => ?_⟩
  simpa [queued] using demanded

/-- At most one more operation, which leaves some demand. -/
theorem enqueue (steady : key.Steady) {more : List DemandOperation} (short : more.length ≤ 1)
    (left : 0 < key.amount + ((key.queued ++ more).map DemandOperation.net).sum) :
    Steady { key with queued := key.queued ++ more } := by
  refine ⟨steady.isUp, steady.isLive, steady.subscribed, steady.running, fun n => ?_⟩
  show 0 < key.amount + (((key.queued ++ more).take n).map DemandOperation.net).sum
  by_cases within : n ≤ key.queued.length
  · rw [List.take_append_of_le_length within]
    exact steady.enough n
  · rw [List.take_of_length_le (by rw [List.length_append]; omega)]
    exact left

/-- An operation on a subscribed key with demand issues no command. -/
theorem runOperation (steady : key.Steady) {operation : DemandOperation}
    {rest : List DemandOperation} (queued : key.queued = operation :: rest) :
    ({ key with queued := rest }.runOperation operation).Steady := by
  have before := steady.enough 0
  have after := steady.enough 1
  simp only [queued, List.take_zero, List.map_nil, List.sum_nil, add_zero] at before
  simp only [queued, List.take_succ_cons, List.take_zero, List.map_singleton,
    List.sum_singleton] at after
  have moved : ({ key with queued := rest }.runOperation operation) =
      { key with
        queued := rest
        demand := ({ key with queued := rest }.runOperation operation).demand } := by
    cases operation with
    | increment =>
        rw [KeyState.runOperation, subscribeIfNeeded, if_pos (.inr (.inl steady.subscribed))]
    | reconcile =>
        rw [KeyState.runOperation, subscribeIfNeeded, if_pos (.inr (.inl steady.subscribed))]
    | decrement =>
        change 0 < key.amount + -1 at after
        have positive : ¬ ({ key with queued := rest } : KeyState).amount ≤ 0 := not_le.mpr before
        have several : ¬ ({ key with queued := rest } : KeyState).amount - 1 = 0 := by
          change ¬ key.amount - 1 = 0
          omega
        rw [KeyState.runOperation, if_neg positive, if_neg several]
  have amount : ({ key with queued := rest }.runOperation operation).amount =
      key.amount + operation.net := amount_runOperation after.le
  refine ⟨?_, ?_, ?_, ?_, fun n => ?_⟩
  · rw [moved]
    exact steady.isUp
  · rw [moved]
    exact steady.isLive
  · rw [moved]
    exact steady.subscribed
  · rw [moved]
    exact steady.running
  · have later := steady.enough (n + 1)
    rw [queued, List.take_succ_cons, List.map_cons, List.sum_cons, ← add_assoc] at later
    rw [amount, queued_runOperation]
    exact later

/-- What happens at the manager keeps the key steady, while the connection is up. -/
theorem next (steady : key.Steady) {action : KeyAction} (increments : action ≠ .increment)
    (decrements : action ≠ .decrement) (stays : action ≠ .close)
    (taken : key.next action = some key') : key'.Steady := by
  cases action with
  | increment => exact absurd rfl increments
  | decrement => exact absurd rfl decrements
  | close => exact absurd rfl stays
  | runNext =>
      simp only [KeyState.next] at taken
      split at taken
      · rename_i operation rest running queued
        cases taken
        exact steady.runOperation queued
      · cases taken
  | resolve =>
      simp only [KeyState.next, steady.running] at taken
      cases taken
  | reject =>
      simp only [KeyState.next, steady.running] at taken
      cases taken
  | ready =>
      rw [KeyState.next, if_pos steady.isUp] at taken
      cases taken

end Steady

end KeyState

/-! ## The keys of a broker -/

theorem SseConnection.not_uses_closed {eventType : RealtimeEventType} {routingKey : String}
    (connection : SseConnection) : ¬ connection.closed.Uses eventType routingKey :=
  fun uses => Bool.noConfusion uses.1

namespace SseBroker

variable {broker broker' : SseBroker} {eventType : RealtimeEventType} {routingKey : String}

/-- The key is steady at the manager of the broker. -/
def SteadyKey (eventType : RealtimeEventType) (routingKey : String) (broker : SseBroker) : Prop :=
  (broker.redisSubscriptions.view eventType routingKey).Steady

/-- The channel of a steady key is subscribed. -/
theorem SteadyKey.subscribed (steady : broker.SteadyKey eventType routingKey) :
    eventType.getChannel routingKey ∈ broker.redisSubscriptions.subscriber.connectionChannels :=
  of_decide_eq_true steady.isLive

/-- A touch opens no connection. -/
theorem openCount_touch_le (touched : Touch broker broker') :
    broker'.openCount eventType routingKey ≤ broker.openCount eventType routingKey := by
  cases touched with
  | traffic change traffic =>
      refine (OrderedMap.count_mapValues _ _ fun connectionId connection => ?_).le
      exact (traffic connectionId connection).uses_iff eventType routingKey
  | @update connectionId connection connection' known traffic =>
      have counted := OrderedMap.count_set_of_get (·.Uses eventType routingKey) known connection'
      simp only [traffic.uses_iff] at counted
      exact (Nat.add_right_cancel counted).le
  | @cleanup connectionId connection reason caller found isOpen =>
      have counted := OrderedMap.count_set_of_get (·.Uses eventType routingKey)
        (find_eq_some found).2 connection.closed
      rw [if_neg connection.not_uses_closed, add_zero] at counted
      rw [cleanupConnection_eq found isOpen]
      exact Nat.le.intro counted
  | book => exact le_rfl

namespace SteadyKey

/-- Operations of other clients that leave the key with a user. -/
theorem of_queued (steady : broker.SteadyKey eventType routingKey) (accounted : broker'.Accounted)
    (used : 0 < broker'.openCount eventType routingKey) {more : List DemandOperation}
    (short : more.length ≤ 1)
    (queued : broker'.redisSubscriptions.view eventType routingKey =
      { broker.redisSubscriptions.view eventType routingKey with
        queued := (broker.redisSubscriptions.view eventType routingKey).queued ++ more }) :
    broker'.SteadyKey eventType routingKey := by
  have total := (accounted.accounts eventType routingKey).total
  rw [queued] at total
  rw [SteadyKey, queued]
  refine steady.enqueue short ?_
  refine lt_of_lt_of_eq ?_ total.symm
  exact_mod_cast used

theorem register (steady : broker.SteadyKey eventType routingKey) (accounted : broker.Accounted)
    (used : 0 < broker.openCount eventType routingKey) (now : ℕ)
    (input : RegisterConnectionInput) :
    (broker.registerConnection now input).SteadyKey eventType routingKey := by
  have queued := @RedisSubscriptionManager.view_foldl_routingKeys eventType routingKey .increment
    input.eventType _ (nodup_distinct input.routingKeys) broker.redisSubscriptions
  have counted : (broker.registerConnection now input).openCount eventType routingKey =
      broker.openCount eventType routingKey +
        if (SseConnection.ofInput input).Uses eventType routingKey then 1 else 0 :=
    OrderedMap.count_set_of_none _ (accounted.wired.get_eq_none now) _
  refine steady.of_queued (accounted.register now input) (by omega) ?_ queued
  split <;> simp

theorem touch (steady : broker.SteadyKey eventType routingKey) (accounted : broker.Accounted)
    (touched : Touch broker broker') (used : 0 < broker'.openCount eventType routingKey) :
    broker'.SteadyKey eventType routingKey := by
  have accounted' := accounted.touch touched
  cases touched with
  | traffic => exact steady
  | update => exact steady
  | book => exact steady
  | @cleanup connectionId connection reason caller found isOpen =>
      have queued := @RedisSubscriptionManager.view_foldl_routingKeys eventType routingKey
        .decrement connection.eventType _
        (accounted.wired.routingKeys connectionId connection (find_eq_some found).2)
        broker.redisSubscriptions
      rw [cleanupConnection_eq found isOpen] at accounted' used ⊢
      refine steady.of_queued accounted' used ?_ queued
      split <;> simp

theorem touches (steady : broker.SteadyKey eventType routingKey) (accounted : broker.Accounted)
    (touched : Touches broker broker') (used : 0 < broker'.openCount eventType routingKey) :
    broker'.SteadyKey eventType routingKey := by
  induction touched with
  | refl => exact steady
  | @tail middle final earlier touched ih =>
      have still := ih (used.trans_le (openCount_touch_le touched))
      exact still.touch (accounted.touches earlier) touched used

/-- **A steady key with a user stays steady** while the connection to Redis is up. -/
theorem next {K : Type} {codec : JsonCodec K} {action : Action}
    (steady : broker.SteadyKey eventType routingKey) (accounted : broker.Accounted)
    (stays : action ≠ .redis .close) (taken : broker.next codec action = some broker')
    (used : 0 < broker'.openCount eventType routingKey)
    (usedBefore : 0 < broker.openCount eventType routingKey) :
    broker'.SteadyKey eventType routingKey := by
  obtain ⟨now, input, -, rfl⟩ | touched | ⟨event, rfl, taken⟩ := accounted.wired.step_cases taken
  · exact steady.register accounted usedBefore now input
  · exact steady.touches accounted touched used
  · obtain ⟨manager, stepped, rfl⟩ := Option.map_eq_some_iff.mp taken
    have moved := @RedisSubscriptionManager.view_next eventType routingKey _ _ _ stepped
    show (manager.view eventType routingKey).Steady
    cases known : RedisSubscriptionManager.keyAction eventType routingKey event.action with
    | none =>
        rw [known, Option.elim_none, Option.some.injEq] at moved
        rw [← moved]
        exact steady
    | some keyed =>
        rw [known, Option.elim_some] at moved
        obtain ⟨increments, decrements⟩ := event.keyAction_ne known
        refine KeyState.Steady.next steady increments decrements ?_ moved
        rintro rfl
        cases event with
        | close => exact stays rfl
        | ready => cases known
        | runNext demandKey => cases (Option.ite_none_right_eq_some.mp known).2
        | resolve demandKey => cases (Option.ite_none_right_eq_some.mp known).2
        | reject demandKey => cases (Option.ite_none_right_eq_some.mp known).2

end SteadyKey

theorem Accounted.next {K : Type} {codec : JsonCodec K} {action : Action}
    (accounted : broker.Accounted) (taken : broker.next codec action = some broker') :
    broker'.Accounted := by
  obtain ⟨now, input, -, rfl⟩ | touched | ⟨event, -, taken⟩ := accounted.wired.step_cases taken
  · exact accounted.register now input
  · exact accounted.touches touched
  · exact accounted.redis taken

/-! ## Settled connections -/

/-- The connection is open, Redis is up, and the operations of its keys have ended without a
failed subscribe. -/
structure SettledConnection (connectionId : ConnectionId) (connection : SseConnection)
    (broker : SseBroker) : Prop where
  known : broker.connections.get connectionId = some connection
  isOpen : connection.isClosed = false
  isUp : broker.redisSubscriptions.subscriber.isUp = true
  ended : ∀ routingKey ∈ connection.routingKeys,
    broker.redisSubscriptions.subscriptionOpByDemandKey.get
      (getDemandKey connection.eventType routingKey) = none
  accepted : ∀ routingKey ∈ connection.routingKeys,
    connection.eventType.getChannel routingKey ∉
      broker.redisSubscriptions.subscriber.failedSubscribes

/-- An open connection is counted under each of its keys. -/
theorem openCount_pos {connectionId : ConnectionId} {connection : SseConnection}
    (known : broker.connections.get connectionId = some connection)
    (isOpen : connection.isClosed = false) (member : routingKey ∈ connection.routingKeys) :
    0 < broker.openCount connection.eventType routingKey := by
  have counted := OrderedMap.count_set_of_get (·.Uses connection.eventType routingKey) known
    connection.closed
  rw [if_pos ⟨isOpen, rfl, member⟩, if_neg connection.not_uses_closed] at counted
  rw [openCount]
  omega

/-- The keys of a settled connection are steady. -/
theorem SettledConnection.steady {connectionId : ConnectionId} {connection : SseConnection}
    (settled : broker.SettledConnection connectionId connection) (accounted : broker.Accounted)
    (sound : (broker.redisSubscriptions.view connection.eventType routingKey).Sound)
    (member : routingKey ∈ connection.routingKeys) :
    broker.SteadyKey connection.eventType routingKey := by
  obtain ⟨running, queued⟩ :=
    RedisSubscriptionManager.running_view_of_get_eq_none (settled.ended routingKey member)
  have total := (accounted.accounts connection.eventType routingKey).total
  rw [queued, List.map_nil, List.sum_nil, add_zero] at total
  have used := openCount_pos settled.known settled.isOpen member
  refine .of_sound sound settled.isUp running queued
    (decide_eq_false (settled.accepted routingKey member)) ?_
  rw [total]
  exact_mod_cast used

end SseBroker

end EliteHubVault
