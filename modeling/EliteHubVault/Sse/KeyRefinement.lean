import EliteHubVault.Sse.KeyState

/-!
# The manager refines the machine of each key

`view` forgets all keys but one. Two keys share no entry of a map and no channel, so a step of
the manager on one key is invisible to the others. A 'close' and a 'ready' are steps of every
key at once. So every key of a manager lives through a run of the machine of one key.
-/

set_option autoImplicit false

namespace EliteHubVault

open Library

namespace RedisSubscriptionManager

/-- What a manager and its client know about a key. -/
def view (eventType : RealtimeEventType) (routingKey : String)
    (manager : RedisSubscriptionManager) : KeyState where
  isUp := manager.subscriber.isUp
  demand := manager.demandCount.get (getDemandKey eventType routingKey)
  state := manager.stateOf (getDemandKey eventType routingKey)
  running := (manager.chainOf (getDemandKey eventType routingKey)).running
  queued := (manager.chainOf (getDemandKey eventType routingKey)).queued
  isHeld := eventType.getChannel routingKey ∈ manager.subscriber.channels
  isLive := eventType.getChannel routingKey ∈ manager.subscriber.connectionChannels
  hasFailed := eventType.getChannel routingKey ∈ manager.subscriber.failedSubscribes

@[simp] theorem amount_view (eventType : RealtimeEventType) (routingKey : String)
    (manager : RedisSubscriptionManager) : (manager.view eventType routingKey).amount =
      manager.demandOf (getDemandKey eventType routingKey) := rfl

section Own

variable {eventType : RealtimeEventType} {routingKey : String}
  {manager : RedisSubscriptionManager}

/-! ## The key that a step is about -/

theorem chainOf_settle (demandKey : DemandKey) (queued : List DemandOperation)
    (result : RedisSubscriptionManager × Option SubscriberCommand) :
    (settle demandKey queued result).chainOf demandKey = ⟨result.2, queued⟩ := by
  show ((if result.2.isNone ∧ queued = [] then
      result.1.subscriptionOpByDemandKey.delete demandKey
    else result.1.subscriptionOpByDemandKey.set demandKey ⟨result.2, queued⟩).get
      demandKey).getD ⟨none, []⟩ = ⟨result.2, queued⟩
  by_cases finished : result.2.isNone ∧ queued = []
  · obtain ⟨nothing, rfl⟩ := finished
    rw [Option.isNone_iff_eq_none] at nothing
    simp [nothing]
  · rw [if_neg finished, OrderedMap.get_set_self]
    rfl

/-- After a step of the chain the key has the command and the operations of the chain. -/
theorem view_settle (queued : List DemandOperation)
    (result : RedisSubscriptionManager × Option SubscriberCommand) :
    (settle (getDemandKey eventType routingKey) queued result).view eventType routingKey =
      { result.1.view eventType routingKey with running := result.2, queued } := by
  simp only [view, chainOf_settle]
  rfl

theorem view_setState (state : SubscriptionState) :
    (manager.setState (getDemandKey eventType routingKey) state).view eventType routingKey =
      { manager.view eventType routingKey with state := some state } := by
  simp only [view, stateOf, setState, OrderedMap.get_set_self]
  rfl

/-- What the key has after an operation that came to its next command. -/
def viewResult (eventType : RealtimeEventType) (routingKey : String)
    (queued : List DemandOperation)
    (result : RedisSubscriptionManager × Option SubscriberCommand) : KeyState :=
  { result.1.view eventType routingKey with running := result.2, queued }

theorem viewResult_subscribeIfNeeded (queued : List DemandOperation) :
    viewResult eventType routingKey queued
        (manager.subscribeIfNeeded (getDemandKey eventType routingKey)) =
      KeyState.subscribeIfNeeded
        { manager.view eventType routingKey with running := none, queued } := by
  unfold subscribeIfNeeded KeyState.subscribeIfNeeded
  by_cases low : manager.demandOf (getDemandKey eventType routingKey) ≤ 0
  · rw [if_pos low, if_pos (.inl low)]
    rfl
  · rw [if_neg low]
    by_cases done : manager.stateOf (getDemandKey eventType routingKey) = some .subscribed ∨
        manager.stateOf (getDemandKey eventType routingKey) = some .subscribing
    · rw [if_pos done, if_pos (.inr done)]
      rfl
    · refine Eq.trans ?_ (if_neg (not_or.mpr ⟨low, done⟩)).symm
      simp only [if_neg done, channelOf_getDemandKey, viewResult, view_setState]

theorem viewResult_unsubscribeIfNeeded (queued : List DemandOperation) :
    viewResult eventType routingKey queued
        (manager.unsubscribeIfNeeded (getDemandKey eventType routingKey)) =
      KeyState.unsubscribeIfNeeded
        { manager.view eventType routingKey with running := none, queued } := by
  unfold unsubscribeIfNeeded KeyState.unsubscribeIfNeeded
  by_cases wanted : 0 < manager.demandOf (getDemandKey eventType routingKey)
  · rw [if_pos wanted, if_pos (.inl wanted)]
    rfl
  · rw [if_neg wanted]
    by_cases done : manager.stateOf (getDemandKey eventType routingKey) = none ∨
        manager.stateOf (getDemandKey eventType routingKey) = some .idle ∨
        manager.stateOf (getDemandKey eventType routingKey) = some .unsubscribing
    · rw [if_pos done, if_pos (.inr done)]
      rfl
    · refine Eq.trans ?_ (if_neg (not_or.mpr ⟨wanted, done⟩)).symm
      simp only [if_neg done, channelOf_getDemandKey, viewResult, view_setState]

/-- A new count of the key. -/
theorem view_demandCount_set (count : ℤ) :
    view eventType routingKey { manager with
      demandCount := manager.demandCount.set (getDemandKey eventType routingKey) count } =
      { manager.view eventType routingKey with demand := some count } := by
  simp only [view, OrderedMap.get_set_self]
  rfl

theorem view_demandCount_delete :
    view eventType routingKey { manager with
      demandCount := manager.demandCount.delete (getDemandKey eventType routingKey) } =
      { manager.view eventType routingKey with demand := none } := by
  simp only [view, OrderedMap.get_delete_self]
  rfl

theorem viewResult_runOperation (queued : List DemandOperation) (operation : DemandOperation) :
    viewResult eventType routingKey queued
        (manager.runOperation (getDemandKey eventType routingKey) operation) =
      KeyState.runOperation
        { manager.view eventType routingKey with running := none, queued } operation := by
  cases operation with
  | increment =>
      simp only [runOperation, KeyState.runOperation, viewResult_subscribeIfNeeded,
        view_demandCount_set]
      rfl
  | reconcile => exact viewResult_subscribeIfNeeded queued
  | decrement =>
      simp only [runOperation, KeyState.runOperation]
      by_cases low : manager.demandOf (getDemandKey eventType routingKey) ≤ 0
      · refine Eq.trans ?_ (if_pos low).symm
        rw [if_pos low]
        rfl
      · refine Eq.trans ?_ (if_neg low).symm
        rw [if_neg low]
        by_cases last : manager.demandOf (getDemandKey eventType routingKey) - 1 = 0
        · refine Eq.trans ?_ (if_pos last).symm
          rw [if_pos last, viewResult_unsubscribeIfNeeded, view_demandCount_delete]
        · refine Eq.trans ?_ (if_neg last).symm
          rw [if_neg last, viewResult, view_demandCount_set]
          rfl

/-- A command that is executed changes whether the channel is held and live. -/
theorem view_execute (command : SubscriberCommand) :
    (manager.execute command (eventType.getChannel routingKey)).view eventType routingKey =
      { manager.view eventType routingKey with
        isHeld := decide (command.kind = .subscribe)
        isLive := decide (command.kind = .subscribe) } := by
  obtain ⟨kind, isFresh⟩ := command
  refine KeyState.ext rfl rfl rfl rfl rfl ?_ ?_ rfl
  · cases kind <;> simp [view, execute]
  · cases kind <;> simp [view, execute]

theorem viewResult_afterResolved (queued : List DemandOperation) (command : SubscriberCommand) :
    viewResult eventType routingKey queued
        ((manager.execute command (eventType.getChannel routingKey)).afterResolved
          (getDemandKey eventType routingKey) command.kind) =
      KeyState.resolved { manager.view eventType routingKey with queued } command.kind := by
  have executed := @view_execute eventType routingKey manager command
  obtain ⟨kind, isFresh⟩ := command
  cases kind with
  | subscribe =>
      simp only [afterResolved, KeyState.resolved]
      by_cases wanted : 0 < manager.demandOf (getDemandKey eventType routingKey)
      · refine Eq.trans ?_ (if_pos wanted).symm
        refine (congrArg _ (if_pos wanted)).trans ?_
        simp [viewResult, view_setState, executed]
      · refine Eq.trans ?_ (if_neg wanted).symm
        refine (congrArg _ (if_neg wanted)).trans ?_
        simp [viewResult_unsubscribeIfNeeded, view_setState, executed]
  | unsubscribe =>
      simp only [afterResolved, KeyState.resolved]
      by_cases unwanted : manager.demandOf (getDemandKey eventType routingKey) ≤ 0
      · refine (congrArg _ (if_pos unwanted)).trans ?_
        rw [if_pos (show ({ manager.view eventType routingKey with queued } : KeyState).amount ≤ 0
          from unwanted)]
        simp [viewResult, view_setState, executed]
      · refine (congrArg _ (if_neg unwanted)).trans ?_
        rw [if_neg (show ¬ ({ manager.view eventType routingKey with queued } : KeyState).amount ≤ 0
          from unwanted)]
        simp [viewResult, view_setState, executed]

/-- A command that fails is noted when it is a fresh subscribe. -/
theorem view_noteFailure (command : SubscriberCommand) :
    (manager.noteFailure command (eventType.getChannel routingKey)).view eventType routingKey =
      { manager.view eventType routingKey with
        hasFailed := (manager.view eventType routingKey).hasFailed ||
          (command.kind = .subscribe && command.isFresh) } := by
  obtain ⟨kind, isFresh⟩ := command
  refine KeyState.ext rfl rfl rfl rfl rfl rfl rfl ?_
  cases kind with
  | unsubscribe => exact (Bool.or_false _).symm
  | subscribe =>
      cases isFresh with
      | false => exact (Bool.or_false _).symm
      | true => simp [view, noteFailure]

theorem viewResult_afterRejected (queued : List DemandOperation) (command : SubscriberCommand) :
    viewResult eventType routingKey queued
        ((manager.noteFailure command (eventType.getChannel routingKey)).afterRejected
          (getDemandKey eventType routingKey) command.kind, none) =
      KeyState.rejected { manager.view eventType routingKey with queued } command := by
  have noted := @view_noteFailure eventType routingKey manager command
  obtain ⟨kind, isFresh⟩ := command
  cases kind with
  | subscribe => simp [viewResult, afterRejected, KeyState.rejected, view_setState, noted]
  | unsubscribe =>
      by_cases wanted : 0 < manager.demandOf (getDemandKey eventType routingKey)
      · have same : afterRejected (getDemandKey eventType routingKey)
            (manager.noteFailure ⟨.unsubscribe, isFresh⟩ (eventType.getChannel routingKey))
            .unsubscribe = setState (getDemandKey eventType routingKey) .subscribed
            (manager.noteFailure ⟨.unsubscribe, isFresh⟩ (eventType.getChannel routingKey)) :=
          if_pos wanted
        have amount : 0 < ({ manager.view eventType routingKey with queued } : KeyState).amount :=
          wanted
        simp [viewResult, same, KeyState.rejected, view_setState, noted, amount]
      · have same : afterRejected (getDemandKey eventType routingKey)
            (manager.noteFailure ⟨.unsubscribe, isFresh⟩ (eventType.getChannel routingKey))
            .unsubscribe = setState (getDemandKey eventType routingKey) .idle
            (manager.noteFailure ⟨.unsubscribe, isFresh⟩ (eventType.getChannel routingKey)) :=
          if_neg wanted
        have amount : ¬ 0 < ({ manager.view eventType routingKey with queued } : KeyState).amount :=
          wanted
        simp [viewResult, same, KeyState.rejected, view_setState, noted, amount]

theorem view_runSerialized (operation : DemandOperation) :
    (manager.runSerialized (getDemandKey eventType routingKey) operation).view eventType
        routingKey =
      { manager.view eventType routingKey with
        queued := (manager.view eventType routingKey).queued ++ [operation] } := by
  refine KeyState.ext rfl rfl rfl ?_ ?_ rfl rfl rfl
  · simp [view, runSerialized, chainOf]
  · simp [view, runSerialized, chainOf]

end Own

/-! ## The other keys -/

/-- A step that no other key can see. -/
def OnlyKey (demandKey : DemandKey) (before after : RedisSubscriptionManager) : Prop :=
  ∀ eventType routingKey, getDemandKey eventType routingKey ≠ demandKey →
    after.view eventType routingKey = before.view eventType routingKey

namespace OnlyKey

variable {demandKey : DemandKey} {before middle after : RedisSubscriptionManager}

theorem refl (manager : RedisSubscriptionManager) : OnlyKey demandKey manager manager :=
  fun _ _ _ => rfl

theorem trans (first : OnlyKey demandKey before middle) (second : OnlyKey demandKey middle after) :
    OnlyKey demandKey before after :=
  fun eventType routingKey other =>
    (second eventType routingKey other).trans (first eventType routingKey other)

theorem demandCount_set (count : ℤ) (manager : RedisSubscriptionManager) :
    OnlyKey demandKey manager
      { manager with demandCount := manager.demandCount.set demandKey count } :=
  fun _ _ other => KeyState.ext rfl (OrderedMap.get_set_of_ne _ _ other) rfl rfl rfl rfl rfl rfl

theorem demandCount_delete (manager : RedisSubscriptionManager) :
    OnlyKey demandKey manager
      { manager with demandCount := manager.demandCount.delete demandKey } :=
  fun _ _ other => KeyState.ext rfl (OrderedMap.get_delete_of_ne _ other) rfl rfl rfl rfl rfl rfl

theorem setState (state : SubscriptionState) (manager : RedisSubscriptionManager) :
    OnlyKey demandKey manager (manager.setState demandKey state) :=
  fun _ _ other => KeyState.ext rfl rfl (OrderedMap.get_set_of_ne _ _ other) rfl rfl rfl rfl rfl

/-- The chains change at the key only. -/
theorem chains {chains : OrderedMap DemandKey OperationChain} (manager : RedisSubscriptionManager)
    (same : ∀ other, other ≠ demandKey →
      chains.get other = manager.subscriptionOpByDemandKey.get other) :
    OnlyKey demandKey manager { manager with subscriptionOpByDemandKey := chains } := by
  intro eventType routingKey other
  have chain : chainOf (getDemandKey eventType routingKey)
      { manager with subscriptionOpByDemandKey := chains } =
      manager.chainOf (getDemandKey eventType routingKey) := by
    unfold chainOf
    rw [same _ other]
  exact KeyState.ext rfl rfl rfl (congrArg OperationChain.running chain)
    (congrArg OperationChain.queued chain) rfl rfl rfl

theorem settle (queued : List DemandOperation)
    (result : RedisSubscriptionManager × Option SubscriberCommand) :
    OnlyKey demandKey result.1 (settle demandKey queued result) := by
  refine chains result.1 fun other different => ?_
  split
  · exact OrderedMap.get_delete_of_ne _ different
  · exact OrderedMap.get_set_of_ne _ _ different

theorem runSerialized (operation : DemandOperation) (manager : RedisSubscriptionManager) :
    OnlyKey demandKey manager (manager.runSerialized demandKey operation) :=
  chains manager fun _ different => OrderedMap.get_set_of_ne _ _ different

theorem subscribeIfNeeded (manager : RedisSubscriptionManager) :
    OnlyKey demandKey manager (manager.subscribeIfNeeded demandKey).1 := by
  unfold RedisSubscriptionManager.subscribeIfNeeded
  dsimp only
  split
  · exact refl manager
  split
  · exact refl manager
  split
  · exact refl manager
  · exact setState .subscribing manager

theorem unsubscribeIfNeeded (manager : RedisSubscriptionManager) :
    OnlyKey demandKey manager (manager.unsubscribeIfNeeded demandKey).1 := by
  unfold RedisSubscriptionManager.unsubscribeIfNeeded
  dsimp only
  split
  · exact refl manager
  split
  · exact refl manager
  split
  · exact refl manager
  · exact setState .unsubscribing manager

theorem runOperation (operation : DemandOperation) (manager : RedisSubscriptionManager) :
    OnlyKey demandKey manager (manager.runOperation demandKey operation).1 := by
  cases operation with
  | increment => exact (demandCount_set _ manager).trans (subscribeIfNeeded _)
  | reconcile => exact subscribeIfNeeded manager
  | decrement =>
      unfold RedisSubscriptionManager.runOperation
      dsimp only
      split
      · exact refl manager
      split
      · exact (demandCount_delete manager).trans (unsubscribeIfNeeded _)
      · exact demandCount_set _ manager

theorem afterResolved (kind : CommandKind) (manager : RedisSubscriptionManager) :
    OnlyKey demandKey manager (manager.afterResolved demandKey kind).1 := by
  cases kind with
  | subscribe =>
      unfold RedisSubscriptionManager.afterResolved
      dsimp only
      split
      · exact setState .subscribed manager
      · exact (setState .subscribed manager).trans (unsubscribeIfNeeded _)
  | unsubscribe =>
      unfold RedisSubscriptionManager.afterResolved
      dsimp only
      split
      · exact setState .idle manager
      · exact setState .subscribed manager

theorem afterRejected (kind : CommandKind) (manager : RedisSubscriptionManager) :
    OnlyKey demandKey manager (manager.afterRejected demandKey kind) := by
  cases kind with
  | subscribe => exact setState .idle manager
  | unsubscribe =>
      unfold RedisSubscriptionManager.afterRejected
      dsimp only
      split
      · exact setState .subscribed manager
      · exact setState .idle manager

end OnlyKey

section Channels

variable {eventType other : RealtimeEventType} {routingKey otherKey : String}

/-- Keys that differ have channels that differ. -/
theorem getChannel_ne (different : getDemandKey other otherKey ≠ getDemandKey eventType routingKey) :
    other.getChannel otherKey ≠ eventType.getChannel routingKey := by
  intro same
  exact different (getDemandKey_inj.mpr (RealtimeEventType.getChannel_inj.mp same))

theorem OnlyKey.execute (command : SubscriberCommand) (manager : RedisSubscriptionManager) :
    OnlyKey (getDemandKey eventType routingKey) manager
      (manager.execute command (eventType.getChannel routingKey)) := by
  intro other otherKey different
  have channel := getChannel_ne different
  obtain ⟨kind, isFresh⟩ := command
  refine KeyState.ext rfl rfl rfl rfl rfl ?_ ?_ rfl
  · cases kind <;> simp [view, RedisSubscriptionManager.execute, channel]
  · cases kind <;> simp [view, RedisSubscriptionManager.execute, channel]

theorem OnlyKey.noteFailure (command : SubscriberCommand) (manager : RedisSubscriptionManager) :
    OnlyKey (getDemandKey eventType routingKey) manager
      (manager.noteFailure command (eventType.getChannel routingKey)) := by
  intro other otherKey different
  have channel := getChannel_ne different
  obtain ⟨kind, isFresh⟩ := command
  refine KeyState.ext rfl rfl rfl rfl rfl rfl rfl ?_
  cases kind with
  | unsubscribe => rfl
  | subscribe =>
      cases isFresh with
      | false => rfl
      | true => simp [view, RedisSubscriptionManager.noteFailure, channel]

end Channels

section Runs

variable {eventType : RealtimeEventType} {routingKey : String}
  {manager manager' : RedisSubscriptionManager}

/-! ## Events of the connection -/

theorem view_onClose : manager.loseConnection.onClose.view eventType routingKey =
    (manager.view eventType routingKey).closed := by
  refine KeyState.ext rfl rfl ?_ rfl rfl rfl ?_ rfl
  · exact OrderedMap.get_mapValues _ _ _
  · simp [view, KeyState.closed, onClose, loseConnection]

/-- Queue an operation of each of these keys. -/
theorem view_foldl_runSerialized (operation : DemandOperation) {demandKeys : List DemandKey}
    (nodup : demandKeys.Nodup) (manager : RedisSubscriptionManager) :
    (demandKeys.foldl (fun manager demandKey => manager.runSerialized demandKey operation)
        manager).view eventType routingKey =
      { manager.view eventType routingKey with
        queued := (manager.view eventType routingKey).queued ++
          if getDemandKey eventType routingKey ∈ demandKeys then [operation] else [] } := by
  induction demandKeys generalizing manager with
  | nil => simp
  | cons demandKey rest ih =>
      obtain ⟨absent, nodup⟩ := List.nodup_cons.mp nodup
      rw [List.foldl_cons, ih nodup]
      by_cases own : getDemandKey eventType routingKey = demandKey
      · subst own
        rw [view_runSerialized, if_neg absent, if_pos List.mem_cons_self, List.append_nil]
      · rw [OnlyKey.runSerialized operation manager eventType routingKey own]
        simp [own]

/-- Queue an operation of each of these routing keys. -/
theorem view_foldl_routingKeys (operation : DemandOperation) (other : RealtimeEventType)
    {routingKeys : List String} (nodup : routingKeys.Nodup) (manager : RedisSubscriptionManager) :
    (routingKeys.foldl (fun manager otherKey =>
        manager.runSerialized (getDemandKey other otherKey) operation) manager).view eventType
        routingKey =
      { manager.view eventType routingKey with
        queued := (manager.view eventType routingKey).queued ++
          if other = eventType ∧ routingKey ∈ routingKeys then [operation] else [] } := by
  have distinctKeys : (routingKeys.map (getDemandKey other)).Nodup :=
    nodup.map fun _ _ same => (getDemandKey_inj.mp same).2
  have listed : getDemandKey eventType routingKey ∈ routingKeys.map (getDemandKey other) ↔
      other = eventType ∧ routingKey ∈ routingKeys := by
    constructor
    · intro member
      obtain ⟨otherKey, present, same⟩ := List.mem_map.mp member
      obtain ⟨rfl, rfl⟩ := getDemandKey_inj.mp same
      exact ⟨rfl, present⟩
    · rintro ⟨rfl, member⟩
      exact List.mem_map_of_mem member
  have queued := @view_foldl_runSerialized eventType routingKey operation _ distinctKeys manager
  rw [List.foldl_map] at queued
  rw [queued]
  simp only [listed]

theorem view_connect : manager.connect.view eventType routingKey =
    { manager.view eventType routingKey with
      isUp := true
      isLive := (manager.view eventType routingKey).isHeld
      hasFailed := false
      running := (manager.view eventType routingKey).running.map fun command =>
        { command with isFresh := false } } := by
  have chain : manager.connect.chainOf (getDemandKey eventType routingKey) =
      ⟨(manager.chainOf (getDemandKey eventType routingKey)).running.map fun command =>
          { command with isFresh := false },
        (manager.chainOf (getDemandKey eventType routingKey)).queued⟩ := by
    simp only [chainOf, connect, OrderedMap.get_mapValues]
    cases manager.subscriptionOpByDemandKey.get (getDemandKey eventType routingKey) <;> rfl
  refine KeyState.ext rfl rfl rfl (congrArg OperationChain.running chain) ?_ rfl rfl ?_
  · exact (congrArg OperationChain.queued chain :)
  · simp [view, connect]

/-- The states of all demanded keys are idle after a 'ready'. -/
theorem view_setAll_idle : view eventType routingKey { manager with
      subscriptionStateByDemandKey :=
        manager.subscriptionStateByDemandKey.setAll manager.demandCount.keys fun _ => .idle } =
    { manager.view eventType routingKey with
      state := if (manager.view eventType routingKey).demand.isSome = true then some .idle
        else (manager.view eventType routingKey).state } := by
  refine KeyState.ext rfl rfl ?_ rfl rfl rfl rfl rfl
  simp only [view, stateOf, OrderedMap.get_setAll, OrderedMap.get_isSome_iff]

theorem view_onReady : manager.connect.onReady.view eventType routingKey =
    (manager.view eventType routingKey).connected := by
  have demanded : getDemandKey eventType routingKey ∈ manager.connect.demandCount.keys ↔
      (manager.view eventType routingKey).demand.isSome = true :=
    OrderedMap.get_isSome_iff.symm
  rw [onReady, reconcileAllSubscriptions,
    view_foldl_runSerialized .reconcile (by exact manager.demandCount.nodupKeys),
    view_setAll_idle, view_connect]
  simp only [demanded]
  rfl

/-! ## Every key lives through a run of its machine -/

/-- What a step of the manager is to a key. -/
def keyAction (eventType : RealtimeEventType) (routingKey : String) : Action → Option KeyAction
  | .incrementDemand other otherKey =>
      if getDemandKey eventType routingKey = getDemandKey other otherKey then some .increment
      else none
  | .decrementDemand other otherKey =>
      if getDemandKey eventType routingKey = getDemandKey other otherKey then some .decrement
      else none
  | .runNext demandKey =>
      if getDemandKey eventType routingKey = demandKey then some .runNext else none
  | .resolve demandKey =>
      if getDemandKey eventType routingKey = demandKey then some .resolve else none
  | .reject demandKey =>
      if getDemandKey eventType routingKey = demandKey then some .reject else none
  | .close => some .close
  | .ready => some .ready

/-- What a step of the chain of a key is to the key itself and to the others. -/
theorem view_of_onlyKey {demandKey : DemandKey} {action : KeyAction}
    (only : OnlyKey demandKey manager manager')
    (own : getDemandKey eventType routingKey = demandKey →
      (manager.view eventType routingKey).next action =
        some (manager'.view eventType routingKey)) :
    (if getDemandKey eventType routingKey = demandKey then some action else none).elim
        (some (manager.view eventType routingKey)) (manager.view eventType routingKey).next =
      some (manager'.view eventType routingKey) := by
  by_cases same : getDemandKey eventType routingKey = demandKey
  · rw [if_pos same]
    exact own same
  · rw [if_neg same, Option.elim_none, only eventType routingKey same]

/-- **A step of the manager is a step of each key, or invisible to it.** -/
theorem view_next {action : Action} (taken : manager.next action = some manager') :
    (keyAction eventType routingKey action).elim (some (manager.view eventType routingKey))
        (manager.view eventType routingKey).next =
      some (manager'.view eventType routingKey) := by
  cases action with
  | incrementDemand other otherKey =>
      cases taken
      refine view_of_onlyKey (OnlyKey.runSerialized .increment manager) fun same => ?_
      rw [incrementDemand, ← same, view_runSerialized]
      rfl
  | decrementDemand other otherKey =>
      cases taken
      refine view_of_onlyKey (OnlyKey.runSerialized .decrement manager) fun same => ?_
      rw [decrementDemand, ← same, view_runSerialized]
      rfl
  | runNext demandKey =>
      simp only [next] at taken
      split at taken
      · rename_i operation queued chain
        cases taken
        refine view_of_onlyKey ((OnlyKey.runOperation operation manager).trans
          (OnlyKey.settle queued _)) fun same => ?_
        subst same
        rw [view_settle]
        have ran := @viewResult_runOperation eventType routingKey manager queued operation
        simp only [viewResult] at ran
        rw [ran]
        simp [KeyState.next, view, chain]
      · cases taken
  | resolve demandKey =>
      simp only [next] at taken
      split at taken
      · rename_i command queued channel chain known
        obtain ⟨up, same⟩ := Option.ite_none_right_eq_some.mp taken
        cases same
        obtain ⟨other, otherKey, rfl⟩ := demandKey.exists_eq
        rw [channelOf_getDemandKey, Option.some.injEq] at known
        subst known
        refine view_of_onlyKey (((OnlyKey.execute command manager).trans
          (OnlyKey.afterResolved command.kind _)).trans (OnlyKey.settle queued _)) fun same => ?_
        obtain ⟨rfl, rfl⟩ := getDemandKey_inj.mp same
        rw [view_settle]
        have resolved := @viewResult_afterResolved eventType routingKey manager queued command
        simp only [viewResult] at resolved
        rw [resolved]
        simp [KeyState.next, view, chain, up]
      · cases taken
  | reject demandKey =>
      simp only [next] at taken
      split at taken
      · rename_i command queued channel chain known
        cases taken
        obtain ⟨other, otherKey, rfl⟩ := demandKey.exists_eq
        rw [channelOf_getDemandKey, Option.some.injEq] at known
        subst known
        refine view_of_onlyKey (((OnlyKey.noteFailure command manager).trans
          (OnlyKey.afterRejected command.kind _)).trans (OnlyKey.settle queued (_, none)))
          fun same => ?_
        obtain ⟨rfl, rfl⟩ := getDemandKey_inj.mp same
        rw [view_settle]
        have rejected := @viewResult_afterRejected eventType routingKey manager queued command
        simp only [viewResult] at rejected
        rw [rejected]
        simp [KeyState.next, view, chain]
      · cases taken
  | close =>
      cases taken
      exact congrArg some view_onClose.symm
  | ready =>
      obtain ⟨down, same⟩ := Option.ite_none_left_eq_some.mp taken
      cases same
      rw [view_onReady]
      exact if_neg down

/-- A run of the manager is a run of each key. A guard on the steps of the manager guards the
steps of the key. -/
theorem reaches_view {guard : RedisSubscriptionManager → Action → Prop}
    (keyGuard : KeyState → KeyAction → Prop) {isUp : Bool}
    (guarded : ∀ manager action keyed, guard manager action →
      keyAction eventType routingKey action = some keyed →
      keyGuard (manager.view eventType routingKey) keyed)
    (reached : Reaches next guard (start isUp) manager) :
    Reaches KeyState.next keyGuard (KeyState.start isUp) (manager.view eventType routingKey) := by
  have begins : (start isUp).view eventType routingKey = KeyState.start isUp := by
    simp [view, start, KeyState.start, stateOf, chainOf]
  rw [← begins]
  refine reached.simulate (fun manager => manager.view eventType routingKey) ?_
  intro manager action manager' admitted taken
  have moved := @view_next eventType routingKey manager manager' action taken
  cases known : keyAction eventType routingKey action with
  | none =>
      rw [known, Option.elim_none, Option.some.injEq] at moved
      rw [moved]
      exact .start
  | some keyed =>
      rw [known, Option.elim_some] at moved
      exact Reaches.start.step (guarded manager action keyed admitted known) moved

/-- Every key of a manager is sound. -/
theorem sound_view {isUp : Bool} (reached : Reachable next (start isUp) manager) :
    (manager.view eventType routingKey).Sound :=
  (reaches_view (fun _ _ => True) (fun _ _ _ _ _ => trivial) reached).invariant
    (KeyState.Sound.start isUp) fun _ _ _ sound _ taken => sound.next taken

/-- A key without an entry of operations awaits nothing. -/
theorem running_view_of_get_eq_none
    (idle : manager.subscriptionOpByDemandKey.get (getDemandKey eventType routingKey) = none) :
    (manager.view eventType routingKey).running = none ∧
      (manager.view eventType routingKey).queued = [] := by
  simp [view, chainOf, idle]

end Runs

end RedisSubscriptionManager

end EliteHubVault
