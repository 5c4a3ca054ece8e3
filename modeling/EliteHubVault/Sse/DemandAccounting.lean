import EliteHubVault.Platform.JsonText
import EliteHubVault.Sse.Reconnect
import EliteHubVault.Sse.Wiring

/-!
# Demand accounting

Increments and decrements run later than the calls that queue them. The account of a key is its
demand together with what its queued operations will do to it. The broker keeps the account of
every key equal to the number of open connections that use the key, and no queued decrement
ever finds a demand of zero.
-/

set_option autoImplicit false

namespace EliteHubVault

open Library

/-! ## The account of a key -/

/-- What an operation does to the demand. -/
def DemandOperation.net : DemandOperation → ℤ
  | .increment => 1
  | .decrement => -1
  | .reconcile => 0

namespace KeyState

variable {key key' : KeyState} {count : ℕ}

/-- The demand and the queued operations come to this count, and no decrement comes too early. -/
structure Accounts (key : KeyState) (count : ℕ) : Prop where
  total : key.amount + (key.queued.map DemandOperation.net).sum = count
  never : ∀ n, 0 ≤ key.amount + ((key.queued.take n).map DemandOperation.net).sum

/-- An operation does to the demand what it is meant to, if the demand suffices. -/
theorem amount_runOperation {operation : DemandOperation} (enough : 0 ≤ key.amount + operation.net) :
    (key.runOperation operation).amount = key.amount + operation.net := by
  cases operation with
  | increment =>
      rw [runOperation, amount_subscribeIfNeeded]
      rfl
  | reconcile => simp [runOperation, DemandOperation.net]
  | decrement =>
      change 0 ≤ key.amount + -1 at enough
      change (if key.amount ≤ 0 then key else _).amount = key.amount + -1
      rw [if_neg (by omega)]
      split
      · rename_i last
        rw [amount_unsubscribeIfNeeded]
        show (0 : ℤ) = key.amount + -1
        omega
      · show key.amount - 1 = key.amount + -1
        omega

theorem queued_runOperation (operation : DemandOperation) :
    (key.runOperation operation).queued = key.queued := by
  cases operation with
  | increment => simp [runOperation]
  | reconcile => simp [runOperation]
  | decrement =>
      simp only [runOperation]
      split
      · rfl
      split
      · simp
      · rfl

namespace Accounts

theorem start (isUp : Bool) : (KeyState.start isUp).Accounts 0 where
  total := rfl
  never n := by simp [KeyState.start, amount]

/-- Only the demand and the queued operations count. -/
theorem congr (accounts : key.Accounts count) (amount : key'.amount = key.amount)
    (queued : key'.queued = key.queued) : key'.Accounts count where
  total := by rw [amount, queued, accounts.total]
  never n := by
    rw [amount, queued]
    exact accounts.never n

/-- One more queued operation. -/
theorem enqueue (accounts : key.Accounts count) {operation : DemandOperation} {count' : ℕ}
    (changed : (count : ℤ) + operation.net = count') :
    Accounts { key with queued := key.queued ++ [operation] } count' where
  total := by
    rw [List.map_append, List.sum_append, ← add_assoc]
    refine Eq.trans ?_ changed
    rw [← accounts.total]
    simp [KeyState.amount]
  never n := by
    by_cases within : n ≤ key.queued.length
    · rw [List.take_append_of_le_length within]
      exact accounts.never n
    · rw [List.take_of_length_le (by simp; omega), List.map_append, List.sum_append, ← add_assoc]
      have total : key.amount + (key.queued.map DemandOperation.net).sum = count := accounts.total
      show 0 ≤ key.amount + (key.queued.map DemandOperation.net).sum +
        ([operation].map DemandOperation.net).sum
      rw [total, List.map_singleton, List.sum_singleton, changed]
      exact Int.natCast_nonneg count'

theorem runOperation (accounts : key.Accounts count) {operation : DemandOperation}
    {rest : List DemandOperation} (queued : key.queued = operation :: rest) :
    ({ key with queued := rest }.runOperation operation).Accounts count := by
  have first := accounts.never 1
  simp only [queued, List.take_succ_cons, List.take_zero, List.map_singleton,
    List.sum_singleton] at first
  have amount : ({ key with queued := rest }.runOperation operation).amount =
      key.amount + operation.net := amount_runOperation first
  refine ⟨?_, fun n => ?_⟩
  · rw [amount, queued_runOperation, ← accounts.total, queued, List.map_cons, List.sum_cons]
    show key.amount + operation.net + (rest.map DemandOperation.net).sum = _
    omega
  · have later := accounts.never (n + 1)
    rw [queued, List.take_succ_cons, List.map_cons, List.sum_cons] at later
    rw [amount, queued_runOperation]
    show 0 ≤ key.amount + operation.net + ((rest.take n).map DemandOperation.net).sum
    omega

/-- What happens at the manager leaves the account as it is. -/
theorem next (accounts : key.Accounts count) {action : KeyAction} (increments : action ≠ .increment)
    (decrements : action ≠ .decrement) (taken : key.next action = some key') :
    key'.Accounts count := by
  cases action with
  | increment => exact absurd rfl increments
  | decrement => exact absurd rfl decrements
  | runNext =>
      simp only [KeyState.next] at taken
      split at taken
      · rename_i operation rest running queued
        cases taken
        exact accounts.runOperation queued
      · cases taken
  | resolve =>
      simp only [KeyState.next] at taken
      split at taken
      · rename_i command running
        obtain ⟨-, same⟩ := Option.ite_none_right_eq_some.mp taken
        cases same
        refine accounts.congr ?_ ?_
        · cases command.kind with
          | unsubscribe => rfl
          | subscribe =>
              simp only [resolved]
              split
              · rfl
              · exact amount_unsubscribeIfNeeded _
        · cases command.kind with
          | unsubscribe => rfl
          | subscribe =>
              simp only [resolved]
              split
              · rfl
              · exact queued_unsubscribeIfNeeded _
      · cases taken
  | reject =>
      simp only [KeyState.next] at taken
      split at taken
      · cases taken
        exact accounts.congr rfl rfl
      · cases taken
  | close =>
      cases taken
      exact accounts.congr rfl rfl
  | ready =>
      obtain ⟨-, same⟩ := Option.ite_none_left_eq_some.mp taken
      cases same
      by_cases demanded : key.demand.isSome = true
      · have reconciles : Accounts { key with queued := key.queued ++ [.reconcile] } count :=
          accounts.enqueue (add_zero _)
        refine reconciles.congr rfl ?_
        simp [connected, demanded]
      · refine accounts.congr rfl ?_
        simp [connected, demanded]

end Accounts

end KeyState

/-! ## The accounts of the broker -/

namespace SseConnection

/-- The connection is open and has the key. -/
def Uses (eventType : RealtimeEventType) (routingKey : String) (connection : SseConnection) : Prop :=
  connection.isClosed = false ∧ connection.eventType = eventType ∧
    routingKey ∈ connection.routingKeys

instance (eventType : RealtimeEventType) (routingKey : String) (connection : SseConnection) :
    Decidable (connection.Uses eventType routingKey) := inferInstanceAs (Decidable (_ ∧ _ ∧ _))

theorem Traffic.uses_iff {before after : SseConnection} (traffic : before.Traffic after)
    (eventType : RealtimeEventType) (routingKey : String) :
    after.Uses eventType routingKey ↔ before.Uses eventType routingKey := by
  rw [Uses, traffic.isClosed, traffic.eventType, traffic.routingKeys, Uses]

end SseConnection

namespace SseBroker

variable {broker broker' : SseBroker}

/-- No event at the manager is a call of the broker. -/
theorem RedisEvent.keyAction_ne {event : RedisEvent} {eventType : RealtimeEventType}
    {routingKey : String} {keyed : KeyAction}
    (known : RedisSubscriptionManager.keyAction eventType routingKey event.action = some keyed) :
    keyed ≠ .increment ∧ keyed ≠ .decrement := by
  cases event with
  | runNext demandKey =>
      obtain ⟨-, same⟩ := Option.ite_none_right_eq_some.mp known
      cases same
      exact ⟨nofun, nofun⟩
  | resolve demandKey =>
      obtain ⟨-, same⟩ := Option.ite_none_right_eq_some.mp known
      cases same
      exact ⟨nofun, nofun⟩
  | reject demandKey =>
      obtain ⟨-, same⟩ := Option.ite_none_right_eq_some.mp known
      cases same
      exact ⟨nofun, nofun⟩
  | close =>
      cases known
      exact ⟨nofun, nofun⟩
  | ready =>
      cases known
      exact ⟨nofun, nofun⟩

/-- The number of open connections with the event type whose routing keys contain the key. -/
def openCount (eventType : RealtimeEventType) (routingKey : String) (broker : SseBroker) : ℕ :=
  broker.connections.count (·.Uses eventType routingKey)

/-- **The account of every key is the number of open connections that use it.** -/
structure Accounted (broker : SseBroker) : Prop where
  wired : broker.Wired
  accounts : ∀ eventType routingKey,
    (broker.redisSubscriptions.view eventType routingKey).Accounts
      (broker.openCount eventType routingKey)

namespace Accounted

theorem start (isUp : Bool) : (SseBroker.start isUp).Accounted where
  wired := .start isUp
  accounts eventType routingKey := by
    refine (KeyState.Accounts.start isUp).congr ?_ ?_
    · rfl
    · rfl

/-- A registration adds one to the count and queues one increment, for each of its keys. -/
theorem register (accounted : broker.Accounted) (now : ℕ) (input : RegisterConnectionInput) :
    (broker.registerConnection now input).Accounted where
  wired := accounted.wired.register now input
  accounts eventType routingKey := by
    have queued := @RedisSubscriptionManager.view_foldl_routingKeys eventType routingKey .increment
      input.eventType _ (nodup_distinct input.routingKeys) broker.redisSubscriptions
    have counted : (broker.registerConnection now input).openCount eventType routingKey =
        broker.openCount eventType routingKey +
          if (SseConnection.ofInput input).Uses eventType routingKey then 1 else 0 :=
      OrderedMap.count_set_of_none _ (accounted.wired.get_eq_none now) _
    have uses : (SseConnection.ofInput input).Uses eventType routingKey ↔
        input.eventType = eventType ∧ routingKey ∈ distinct input.routingKeys := by
      simp [SseConnection.Uses, SseConnection.ofInput]
    have manager : (broker.registerConnection now input).redisSubscriptions.view eventType
        routingKey = _ := queued
    rw [manager, counted]
    by_cases own : input.eventType = eventType ∧ routingKey ∈ distinct input.routingKeys
    · rw [if_pos own, if_pos (uses.mpr own)]
      exact (accounted.accounts eventType routingKey).enqueue (Nat.cast_succ _).symm
    · rw [if_neg own, if_neg (mt uses.mp own), List.append_nil]
      exact accounted.accounts eventType routingKey

/-- A cleanup takes one from the count and queues one decrement, for each of the keys. -/
theorem cleanup (accounted : broker.Accounted) {connectionId : ConnectionId}
    {connection : SseConnection} (found : broker.find connectionId = some connection)
    (isOpen : connection.isClosed = false) (reason : SseCloseReason) (caller : CleanupCaller) :
    (broker.cleanupConnection connectionId reason caller).Accounted where
  wired := accounted.wired.cleanup found isOpen reason caller
  accounts eventType routingKey := by
    have known := (find_eq_some found).2
    have queued := @RedisSubscriptionManager.view_foldl_routingKeys eventType routingKey .decrement
      connection.eventType _ (accounted.wired.routingKeys connectionId connection known)
      broker.redisSubscriptions
    have counted := OrderedMap.count_set_of_get (·.Uses eventType routingKey) known
      connection.closed
    have closed : ¬ connection.closed.Uses eventType routingKey := nofun
    have uses : connection.Uses eventType routingKey ↔
        connection.eventType = eventType ∧ routingKey ∈ connection.routingKeys := by
      simp [SseConnection.Uses, isOpen]
    rw [if_neg closed, add_zero] at counted
    rw [cleanupConnection_eq found isOpen]
    have manager : (connection.routingKeys.foldl (fun manager routingKey =>
        manager.decrementDemand connection.eventType routingKey) broker.redisSubscriptions).view
        eventType routingKey = _ := queued
    show KeyState.Accounts (RedisSubscriptionManager.view eventType routingKey _)
      ((broker.connections.set connectionId connection.closed).count _)
    rw [manager]
    by_cases own : connection.eventType = eventType ∧ routingKey ∈ connection.routingKeys
    · rw [if_pos (uses.mpr own)] at counted
      rw [if_pos own]
      refine (accounted.accounts eventType routingKey).enqueue ?_
      change ((broker.connections.count _ : ℕ) : ℤ) + -1 = _
      rw [← counted]
      push_cast
      omega
    · rw [if_neg (mt uses.mp own), add_zero] at counted
      rw [if_neg own, List.append_nil, counted]
      exact accounted.accounts eventType routingKey

/-- Traffic and books leave the accounts alone. -/
theorem of_same (accounted : broker.Accounted) (wired : broker'.Wired)
    (counted : ∀ eventType routingKey,
      broker'.openCount eventType routingKey = broker.openCount eventType routingKey)
    (manager : broker'.redisSubscriptions = broker.redisSubscriptions) : broker'.Accounted where
  wired := wired
  accounts eventType routingKey := by
    rw [manager, counted]
    exact accounted.accounts eventType routingKey

theorem touch (accounted : broker.Accounted) (touched : Touch broker broker') :
    broker'.Accounted := by
  have wired := accounted.wired.touch touched
  cases touched with
  | traffic change traffic =>
      refine accounted.of_same wired (fun eventType routingKey => ?_) rfl
      exact OrderedMap.count_mapValues _ _ fun connectionId connection =>
        (traffic connectionId connection).uses_iff eventType routingKey
  | @update connectionId connection connection' known traffic =>
      refine accounted.of_same wired (fun eventType routingKey => ?_) rfl
      have counted := OrderedMap.count_set_of_get (·.Uses eventType routingKey) known connection'
      simp only [traffic.uses_iff] at counted
      exact Nat.add_right_cancel counted
  | cleanup found isOpen => exact accounted.cleanup found isOpen _ _
  | book callbacks kept phases => exact accounted.of_same wired (fun _ _ => rfl) rfl

theorem touches (accounted : broker.Accounted) (touched : Touches broker broker') :
    broker'.Accounted := by
  induction touched with
  | refl => exact accounted
  | tail _ touched ih => exact ih.touch touched

theorem redis (accounted : broker.Accounted) {event : RedisEvent}
    (taken : broker.redis event = some broker') : broker'.Accounted where
  wired := accounted.wired.redis taken
  accounts eventType routingKey := by
    obtain ⟨manager, stepped, rfl⟩ := Option.map_eq_some_iff.mp taken
    have moved := @RedisSubscriptionManager.view_next eventType routingKey _ _ _ stepped
    show (manager.view eventType routingKey).Accounts (broker.openCount eventType routingKey)
    cases known : RedisSubscriptionManager.keyAction eventType routingKey event.action with
    | none =>
        rw [known, Option.elim_none, Option.some.injEq] at moved
        rw [← moved]
        exact accounted.accounts eventType routingKey
    | some keyed =>
        rw [known, Option.elim_some] at moved
        obtain ⟨increments, decrements⟩ := event.keyAction_ne known
        exact (accounted.accounts eventType routingKey).next increments decrements moved

end Accounted

theorem accounted_of_reachable {K : Type} {codec : JsonCodec K} {isUp : Bool}
    (reached : Reachable (next codec) (SseBroker.start isUp) broker) : broker.Accounted := by
  refine reached.invariant (.start isUp) fun broker action broker' accounted _ taken => ?_
  rcases accounted.wired.step_cases taken with ⟨now, input, -, rfl⟩ | touched | ⟨event, -, taken⟩
  · exact accounted.register now input
  · exact accounted.touches touched
  · exact accounted.redis taken

/-! ## The manager of a broker -/

/-- Calls of the manager are steps of the manager. -/
theorem reachable_foldl_calls {isUp : Bool} {manager : RedisSubscriptionManager}
    (reached : Reachable RedisSubscriptionManager.next (.start isUp) manager)
    (call : String → RedisSubscriptionManager.Action)
    {apply : RedisSubscriptionManager → String → RedisSubscriptionManager}
    (calls : ∀ manager routingKey, RedisSubscriptionManager.next manager (call routingKey) =
      some (apply manager routingKey)) (routingKeys : List String) :
    Reachable RedisSubscriptionManager.next (.start isUp) (routingKeys.foldl apply manager) := by
  induction routingKeys generalizing manager with
  | nil => exact reached
  | cons routingKey rest ih => exact ih (reached.step trivial (calls manager routingKey))

theorem reachable_manager_of_touches {isUp : Bool} (touched : Touches broker broker')
    (reached : Reachable RedisSubscriptionManager.next (.start isUp) broker.redisSubscriptions) :
    Reachable RedisSubscriptionManager.next (.start isUp) broker'.redisSubscriptions := by
  induction touched with
  | refl => exact reached
  | tail _ touched ih =>
      cases touched with
      | traffic => exact ih
      | update => exact ih
      | book => exact ih
      | @cleanup connectionId connection reason caller found isOpen =>
          rw [cleanupConnection_eq found isOpen]
          exact reachable_foldl_calls ih
            (fun routingKey => .decrementDemand connection.eventType routingKey)
            (fun _ _ => rfl) _

/-- The manager of a broker lives through a run of the manager. -/
theorem reachable_manager {K : Type} {codec : JsonCodec K} {isUp : Bool}
    (reached : Reachable (next codec) (SseBroker.start isUp) broker) :
    Reachable RedisSubscriptionManager.next (.start isUp) broker.redisSubscriptions := by
  induction reached with
  | start => exact .start
  | step reached _ taken ih =>
      obtain ⟨now, input, -, rfl⟩ | touched | ⟨event, -, taken⟩ :=
        (wired_of_reachable reached).step_cases taken
      · exact reachable_foldl_calls ih
          (fun routingKey => .incrementDemand input.eventType routingKey) (fun _ _ => rfl) _
      · exact reachable_manager_of_touches touched ih
      · obtain ⟨manager, stepped, rfl⟩ := Option.map_eq_some_iff.mp taken
        exact ih.step trivial stepped

/-- **The demand is the number of open connections.** In every reachable state the stored counts
are positive, and the demand of a key without operations is the number of open connections with
its event type whose routing keys contain it. -/
theorem demand_eq_openCount {K : Type} (codec : JsonCodec K) (isUp : Bool)
    (reached : Reachable (next codec) (SseBroker.start isUp) broker) :
    (∀ demandKey count, broker.redisSubscriptions.demandCount.get demandKey = some count →
      0 < count) ∧
    ∀ eventType routingKey,
      broker.redisSubscriptions.subscriptionOpByDemandKey.get (getDemandKey eventType routingKey) =
        none →
      broker.redisSubscriptions.demandOf (getDemandKey eventType routingKey) =
        broker.openCount eventType routingKey := by
  constructor
  · intro demandKey count stored
    obtain ⟨eventType, routingKey, rfl⟩ := demandKey.exists_eq
    exact (@RedisSubscriptionManager.sound_view eventType routingKey _ _
      (reachable_manager reached)).positive count stored
  · intro eventType routingKey idle
    have accounts := (accounted_of_reachable reached).accounts eventType routingKey
    have total := accounts.total
    rw [(RedisSubscriptionManager.running_view_of_get_eq_none idle).2] at total
    simpa using total

/-- Two clients ask for the same faction, and the first one leaves before its increment runs. -/
theorem demand_eq_openCount_sample : ∃ broker : SseBroker,
    broker.openCount .factionPresenceChanged "f1" = 1 ∧
      broker.redisSubscriptions.demandOf (getDemandKey .factionPresenceChanged "f1") =
        broker.openCount .factionPresenceChanged "f1" := by
  obtain ⟨broker, reached, facts⟩ := exists_reachable_of_execute (next plainJsonCodec)
    (SseBroker.start true)
    [.registerConnection 0 sampleInput, .registerConnection 0 sampleInput,
      .cleanupConnection ⟨0, 1⟩ .clientDisconnect,
      .redis (.runNext (getDemandKey .factionPresenceChanged "f1")),
      .redis (.resolve (getDemandKey .factionPresenceChanged "f1")),
      .redis (.runNext (getDemandKey .factionPresenceChanged "f1")),
      .redis (.runNext (getDemandKey .factionPresenceChanged "f1"))]
    (fun broker => (broker.redisSubscriptions.subscriptionOpByDemandKey.get
        (getDemandKey .factionPresenceChanged "f1")).isNone ∧
      broker.openCount .factionPresenceChanged "f1" = 1)
    (by decide +kernel)
  obtain ⟨idle, counted⟩ := of_decide_eq_true facts
  exact ⟨broker, counted, (demand_eq_openCount plainJsonCodec true reached).2 _ _
    (Option.isNone_iff_eq_none.mp idle)⟩

end SseBroker

end EliteHubVault
