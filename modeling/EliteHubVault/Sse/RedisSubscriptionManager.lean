import EliteHubVault.Library.OrderedMap
import EliteHubVault.Sse.EventRegistry

/-!
# The subscription manager

The manager counts the demand for each key and keeps the key's channel subscribed while the
count is positive. The operations of a key run one after the other: `runNext` runs the first
queued operation up to the command that it awaits, and the operation goes on when the command
is resolved or rejected. An operation that awaits nothing more makes room for the next one.

The subscriber is the Redis client. It remembers the channels it has subscribed and
subscribes them again on a new connection; a command that is in flight at a 'close' is
rejected or sent again.
-/

set_option autoImplicit false

namespace EliteHubVault

open Library

/-! ## Demand keys -/

/-- The template type of demand keys. -/
structure DemandKey where
  text : String
  wellFormed : ∃ (eventType : RealtimeEventType) (routingKey : String),
    text = eventType.text ++ ":" ++ routingKey
deriving DecidableEq

def getDemandKey (eventType : RealtimeEventType) (routingKey : String) : DemandKey :=
  ⟨eventType.text ++ ":" ++ routingKey, eventType, routingKey, rfl⟩

/-- The texts before and after the first colon. -/
def parseDemandKey (demandKey : DemandKey) : String × String :=
  (String.ofList (demandKey.text.toList.takeWhile (· ≠ ':')),
    String.ofList ((demandKey.text.toList.dropWhile (· ≠ ':')).drop 1))

theorem DemandKey.exists_eq (demandKey : DemandKey) :
    ∃ eventType routingKey, demandKey = getDemandKey eventType routingKey := by
  obtain ⟨text, eventType, routingKey, rfl⟩ := demandKey
  exact ⟨eventType, routingKey, rfl⟩

/-- No event type has a colon in its name. -/
theorem parseDemandKey_getDemandKey (eventType : RealtimeEventType) (routingKey : String) :
    parseDemandKey (getDemandKey eventType routingKey) = (eventType.text, routingKey) := by
  have colonFree : ':' ∉ eventType.text.toList := by
    cases eventType <;> decide
  have plain : ∀ c ∈ eventType.text.toList, decide (c ≠ ':') = true := by
    intro c member
    refine decide_eq_true ?_
    rintro rfl
    exact colonFree member
  have characters : (getDemandKey eventType routingKey).text.toList =
      eventType.text.toList ++ ':' :: routingKey.toList := by
    simp [getDemandKey, String.toList_append]
  rw [parseDemandKey, characters, List.takeWhile_append_of_pos plain,
    List.dropWhile_append_of_pos plain]
  simp

theorem getDemandKey_inj {eventType other : RealtimeEventType} {routingKey otherKey : String} :
    getDemandKey eventType routingKey = getDemandKey other otherKey ↔
      eventType = other ∧ routingKey = otherKey := by
  constructor
  · intro same
    have parsed := congrArg parseDemandKey same
    rw [parseDemandKey_getDemandKey, parseDemandKey_getDemandKey, Prod.mk.injEq] at parsed
    have known := congrArg RealtimeEventType.ofText? parsed.1
    rw [RealtimeEventType.ofText?_text, RealtimeEventType.ofText?_text, Option.some.injEq] at known
    exact ⟨known, parsed.2⟩
  · rintro ⟨rfl, rfl⟩
    rfl

/-- The channel of a demand key, as its spec gives it. -/
def channelOf (demandKey : DemandKey) : Option String :=
  let (eventType, routingKey) := parseDemandKey demandKey
  (RealtimeEventType.ofText? eventType).map fun spec => spec.getChannel routingKey

@[simp] theorem channelOf_getDemandKey (eventType : RealtimeEventType) (routingKey : String) :
    channelOf (getDemandKey eventType routingKey) = some (eventType.getChannel routingKey) := by
  simp [channelOf, parseDemandKey_getDemandKey]

/-! ## State -/

inductive SubscriptionState where
  | idle | subscribing | subscribed | unsubscribing
deriving DecidableEq

inductive CommandKind where
  | subscribe | unsubscribe
deriving DecidableEq

/-- A command that an operation awaits, and whether it was issued since the last 'ready'. -/
structure SubscriberCommand where
  kind : CommandKind
  isFresh : Bool

/-- What `runSerialized` is given. -/
inductive DemandOperation where
  | increment | decrement | reconcile
deriving DecidableEq

/-- The promise chain of a key: what its running operation awaits, and the ones after it. -/
structure OperationChain where
  running : Option SubscriberCommand
  queued : List DemandOperation

/-- How many operations of the chain have not ended. -/
def OperationChain.remaining (chain : OperationChain) : ℕ :=
  chain.running.toList.length + chain.queued.length

/-- The Redis client, with the channels it remembers as subscribed and the ones that are
subscribed on the current connection. The last field has the channels of the subscribes that
were issued since the last 'ready' and have failed. -/
structure RedisSubscriber where
  isUp : Bool
  channels : List String
  connectionChannels : List String
  failedSubscribes : List String

structure RedisSubscriptionManager where
  subscriber : RedisSubscriber
  demandCount : OrderedMap DemandKey ℤ
  subscriptionStateByDemandKey : OrderedMap DemandKey SubscriptionState
  subscriptionOpByDemandKey : OrderedMap DemandKey OperationChain

namespace RedisSubscriptionManager

/-- A new manager on a client whose connection is up or not. -/
def start (isUp : Bool) : RedisSubscriptionManager :=
  ⟨⟨isUp, [], [], []⟩, .empty, .empty, .empty⟩

def demandOf (demandKey : DemandKey) (manager : RedisSubscriptionManager) : ℤ :=
  (manager.demandCount.get demandKey).getD 0

def stateOf (demandKey : DemandKey) (manager : RedisSubscriptionManager) :
    Option SubscriptionState :=
  manager.subscriptionStateByDemandKey.get demandKey

def setState (demandKey : DemandKey) (state : SubscriptionState)
    (manager : RedisSubscriptionManager) : RedisSubscriptionManager :=
  { manager with
    subscriptionStateByDemandKey := manager.subscriptionStateByDemandKey.set demandKey state }

/-- The chain of a key; a key without an entry has nothing to do. -/
def chainOf (demandKey : DemandKey) (manager : RedisSubscriptionManager) : OperationChain :=
  (manager.subscriptionOpByDemandKey.get demandKey).getD ⟨none, []⟩

/-! ## Operations, up to the command that they await -/

def subscribeIfNeeded (demandKey : DemandKey) (manager : RedisSubscriptionManager) :
    RedisSubscriptionManager × Option SubscriberCommand :=
  if manager.demandOf demandKey ≤ 0 then
    (manager, none)
  else
    let state := manager.stateOf demandKey
    if state = some .subscribed ∨ state = some .subscribing then
      (manager, none)
    else
      match channelOf demandKey with
      | none => (manager, none)
      | some _ => (manager.setState demandKey .subscribing, some ⟨.subscribe, true⟩)

def unsubscribeIfNeeded (demandKey : DemandKey) (manager : RedisSubscriptionManager) :
    RedisSubscriptionManager × Option SubscriberCommand :=
  if 0 < manager.demandOf demandKey then
    (manager, none)
  else
    let state := manager.stateOf demandKey
    if state = none ∨ state = some .idle ∨ state = some .unsubscribing then
      (manager, none)
    else
      match channelOf demandKey with
      | none => (manager, none)
      | some _ => (manager.setState demandKey .unsubscribing, some ⟨.unsubscribe, true⟩)

/-- The body of an operation. -/
def runOperation (demandKey : DemandKey) (manager : RedisSubscriptionManager) :
    DemandOperation → RedisSubscriptionManager × Option SubscriberCommand
  | .increment =>
      let next := manager.demandOf demandKey + 1
      { manager with demandCount := manager.demandCount.set demandKey next }.subscribeIfNeeded
        demandKey
  | .decrement =>
      let current := manager.demandOf demandKey
      if current ≤ 0 then
        (manager, none)
      else
        let next := current - 1
        if next = 0 then
          { manager with demandCount := manager.demandCount.delete demandKey }.unsubscribeIfNeeded
            demandKey
        else
          ({ manager with demandCount := manager.demandCount.set demandKey next }, none)
  | .reconcile => manager.subscribeIfNeeded demandKey

/-- How an operation goes on when its command is resolved. -/
def afterResolved (demandKey : DemandKey) (manager : RedisSubscriptionManager) :
    CommandKind → RedisSubscriptionManager × Option SubscriberCommand
  | .subscribe =>
      if 0 < manager.demandOf demandKey then
        (manager.setState demandKey .subscribed, none)
      else
        (manager.setState demandKey .subscribed).unsubscribeIfNeeded demandKey
  | .unsubscribe =>
      if manager.demandOf demandKey ≤ 0 then
        (manager.setState demandKey .idle, none)
      else
        (manager.setState demandKey .subscribed, none)

/-- How an operation goes on when its command is rejected. -/
def afterRejected (demandKey : DemandKey) (manager : RedisSubscriptionManager) :
    CommandKind → RedisSubscriptionManager
  | .subscribe => manager.setState demandKey .idle
  | .unsubscribe =>
      if 0 < manager.demandOf demandKey then
        manager.setState demandKey .subscribed
      else
        manager.setState demandKey .idle

/-- The chain after an operation has come to its next command or to its end. -/
def settle (demandKey : DemandKey) (queued : List DemandOperation)
    (result : RedisSubscriptionManager × Option SubscriberCommand) : RedisSubscriptionManager :=
  let chains := result.1.subscriptionOpByDemandKey
  { result.1 with
    subscriptionOpByDemandKey :=
      if result.2.isNone ∧ queued = [] then chains.delete demandKey
      else chains.set demandKey ⟨result.2, queued⟩ }

/-! ## Calls and events -/

def runSerialized (demandKey : DemandKey) (operation : DemandOperation)
    (manager : RedisSubscriptionManager) : RedisSubscriptionManager :=
  let chain := manager.chainOf demandKey
  { manager with
    subscriptionOpByDemandKey := manager.subscriptionOpByDemandKey.set demandKey
      { chain with queued := chain.queued ++ [operation] } }

def incrementDemand (eventType : RealtimeEventType) (routingKey : String) :
    RedisSubscriptionManager → RedisSubscriptionManager :=
  runSerialized (getDemandKey eventType routingKey) .increment

def decrementDemand (eventType : RealtimeEventType) (routingKey : String) :
    RedisSubscriptionManager → RedisSubscriptionManager :=
  runSerialized (getDemandKey eventType routingKey) .decrement

def reconcileAllSubscriptions (manager : RedisSubscriptionManager) : RedisSubscriptionManager :=
  manager.demandCount.keys.foldl (fun manager demandKey => manager.runSerialized demandKey
    .reconcile) manager

def onReady (manager : RedisSubscriptionManager) : RedisSubscriptionManager :=
  reconcileAllSubscriptions { manager with
    subscriptionStateByDemandKey :=
      manager.subscriptionStateByDemandKey.setAll manager.demandCount.keys fun _ => .idle }

def onClose (manager : RedisSubscriptionManager) : RedisSubscriptionManager :=
  { manager with
    subscriptionStateByDemandKey := manager.subscriptionStateByDemandKey.mapValues
      fun _ state => if state = .subscribed ∨ state = .subscribing then .idle else state }

/-! ## Steps -/

/-- The connection is lost. -/
def loseConnection (manager : RedisSubscriptionManager) : RedisSubscriptionManager :=
  { manager with
    subscriber := { manager.subscriber with isUp := false, connectionChannels := [] } }

/-- A new connection, with the channels that the client remembers. -/
def connect (manager : RedisSubscriptionManager) : RedisSubscriptionManager :=
  { manager with
    subscriber := { manager.subscriber with
      isUp := true
      connectionChannels := manager.subscriber.channels
      failedSubscribes := [] }
    subscriptionOpByDemandKey := manager.subscriptionOpByDemandKey.mapValues fun _ chain =>
      { chain with running := chain.running.map fun command => { command with isFresh := false } } }

/-- Redis has executed a command. -/
def execute (command : SubscriberCommand) (channel : String)
    (manager : RedisSubscriptionManager) : RedisSubscriptionManager :=
  { manager with
    subscriber := { manager.subscriber with
      channels := match command.kind with
        | .subscribe => addOnce channel manager.subscriber.channels
        | .unsubscribe => manager.subscriber.channels.filter fun other => other ≠ channel
      connectionChannels := match command.kind with
        | .subscribe => addOnce channel manager.subscriber.connectionChannels
        | .unsubscribe =>
            manager.subscriber.connectionChannels.filter fun other => other ≠ channel } }

/-- A command has failed. -/
def noteFailure (command : SubscriberCommand) (channel : String)
    (manager : RedisSubscriptionManager) : RedisSubscriptionManager :=
  { manager with
    subscriber := { manager.subscriber with
      failedSubscribes := match command.kind, command.isFresh with
        | .subscribe, true => channel :: manager.subscriber.failedSubscribes
        | _, _ => manager.subscriber.failedSubscribes } }

/-- A call of a client of the manager, the turn of a chain, the end of a command or an event
of the connection. -/
inductive Action where
  | incrementDemand (eventType : RealtimeEventType) (routingKey : String)
  | decrementDemand (eventType : RealtimeEventType) (routingKey : String)
  | runNext (demandKey : DemandKey)
  | resolve (demandKey : DemandKey)
  | reject (demandKey : DemandKey)
  | close
  | ready

def next (manager : RedisSubscriptionManager) : Action → Option RedisSubscriptionManager
  | .incrementDemand eventType routingKey => some (manager.incrementDemand eventType routingKey)
  | .decrementDemand eventType routingKey => some (manager.decrementDemand eventType routingKey)
  | .runNext demandKey =>
      match manager.chainOf demandKey with
      | ⟨none, operation :: queued⟩ =>
          some (settle demandKey queued (manager.runOperation demandKey operation))
      | _ => none
  | .resolve demandKey =>
      match manager.chainOf demandKey, channelOf demandKey with
      | ⟨some command, queued⟩, some channel =>
          if manager.subscriber.isUp then
            some (settle demandKey queued
              ((manager.execute command channel).afterResolved demandKey command.kind))
          else none
      | _, _ => none
  | .reject demandKey =>
      match manager.chainOf demandKey, channelOf demandKey with
      | ⟨some command, queued⟩, some channel =>
          some (settle demandKey queued
            ((manager.noteFailure command channel).afterRejected demandKey command.kind, none))
      | _, _ => none
  | .close => some manager.loseConnection.onClose
  | .ready => if manager.subscriber.isUp then none else some manager.connect.onReady

end RedisSubscriptionManager

end EliteHubVault
