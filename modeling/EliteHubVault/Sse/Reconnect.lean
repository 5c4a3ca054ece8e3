import EliteHubVault.Sse.KeyRefinement

/-!
# Reconnects

Every key of a manager lives through a run of the machine of one key, and the invariants of
that machine say what a reconnect leaves behind.

A demanded channel is subscribed again. A channel that nobody demands any more may stay
subscribed: a decrement that takes the demand to zero between a 'close' and the
reconciliation finds the key idle and issues no unsubscribe, although the client holds the
channel.
-/

set_option autoImplicit false

namespace EliteHubVault

open Library

/-! ## Keys that nobody demands -/

namespace KeyState

/-- An unsubscribe is not rejected. -/
def UnsubscribeSucceeds (key : KeyState) : KeyAction → Prop
  | .reject => ∀ isFresh, key.running ≠ some ⟨.unsubscribe, isFresh⟩
  | _ => True

/-- The last demand for a channel that the client holds goes when the key is subscribed. -/
def LeavesSubscribed (key : KeyState) : KeyAction → Prop
  | .runNext => key.queued.head? = some .decrement → key.amount = 1 → key.isHeld = true →
      key.state = some .subscribed
  | _ => True

/-- A channel without demand is held only while an unsubscribe of it is awaited. -/
structure Released (key : KeyState) : Prop where
  sound : key.Sound
  live : key.isLive = true → key.isHeld = true
  awaited : key.demand = none → key.isHeld = true →
    ∃ isFresh, key.running = some ⟨.unsubscribe, isFresh⟩

namespace Released

variable {key key' : KeyState}

theorem start (isUp : Bool) : (KeyState.start isUp).Released :=
  ⟨.start isUp, nofun, nofun⟩

/-- Without an awaited command a held channel is demanded. -/
theorem isHeld_eq_false (released : key.Released) (running : key.running = none)
    (unwanted : key.demand = none) : key.isHeld = false := by
  by_contra held
  obtain ⟨isFresh, awaited⟩ := released.awaited unwanted (Bool.eq_true_of_not_eq_false held)
  rw [running] at awaited
  cases awaited

/-- Every operation that leaves a held channel finds it subscribed, and unsubscribes it. -/
theorem runOperation (released : key.Released) {operation : DemandOperation}
    {rest : List DemandOperation} (running : key.running = none)
    (queued : key.queued = operation :: rest) (leaves : key.LeavesSubscribed .runNext) :
    ({ key with queued := rest }.runOperation operation).Released := by
  refine ⟨released.sound.runOperation running queued, ?_, ?_⟩
  · simpa using released.live
  rw [isHeld_runOperation]
  have notHeld := released.isHeld_eq_false running
  cases operation with
  | increment =>
      intro unwanted
      simp [KeyState.runOperation] at unwanted
  | reconcile =>
      intro unwanted held
      simp only [KeyState.runOperation, demand_subscribeIfNeeded] at unwanted
      cases (notHeld unwanted).symm.trans held
  | decrement =>
      simp only [KeyState.runOperation]
      split
      · intro unwanted held
        cases (notHeld unwanted).symm.trans held
      split
      · rename_i last
        intro _ held
        have amount : key.amount = 1 := by
          change key.amount - 1 = 0 at last
          omega
        have state : key.state = some .subscribed :=
          leaves (by rw [queued]; rfl) amount held
        exact ⟨true, by simp [unsubscribeIfNeeded, KeyState.amount, state]⟩
      · intro unwanted
        cases unwanted

theorem resolved (released : key.Released) {command : SubscriberCommand}
    (running : key.running = some command) (up : key.isUp = true) :
    (key.resolved command.kind).Released := by
  have sound := released.sound.resolved running up
  obtain ⟨kind, isFresh⟩ := command
  cases kind with
  | subscribe =>
      obtain ⟨demanded, -⟩ := released.sound.subscribing isFresh running
      simp only [KeyState.resolved,
        if_pos ((amount_pos_iff released.sound.positive).mpr demanded)] at sound ⊢
      refine ⟨sound, fun _ => rfl, fun unwanted _ => ?_⟩
      rw [show key.demand = none from unwanted] at demanded
      cases demanded
  | unsubscribe =>
      refine ⟨sound, fun live => ?_, fun _ held => ?_⟩
      · cases live
      · cases held

theorem rejected (released : key.Released) {command : SubscriberCommand}
    (running : key.running = some command) (succeeds : key.UnsubscribeSucceeds .reject) :
    (key.rejected command).Released := by
  obtain ⟨kind, isFresh⟩ := command
  cases kind with
  | subscribe =>
      obtain ⟨demanded, -⟩ := released.sound.subscribing isFresh running
      refine ⟨released.sound.rejected running, released.live, fun unwanted _ => ?_⟩
      rw [show key.demand = none from unwanted] at demanded
      cases demanded
  | unsubscribe => exact absurd running (succeeds isFresh)

theorem connected (released : key.Released) (down : key.isUp = false) :
    key.connected.Released := by
  refine ⟨released.sound.connected down, id, fun unwanted held => ?_⟩
  obtain ⟨isFresh, running⟩ := released.awaited unwanted held
  exact ⟨false, by simp [KeyState.connected, running]⟩

theorem next {action : KeyAction} (released : key.Released)
    (succeeds : key.UnsubscribeSucceeds action) (leaves : key.LeavesSubscribed action)
    (taken : key.next action = some key') : key'.Released := by
  have sound := released.sound.next taken
  cases action with
  | increment =>
      cases taken
      exact ⟨sound, released.live, released.awaited⟩
  | decrement =>
      cases taken
      exact ⟨sound, released.live, released.awaited⟩
  | runNext =>
      simp only [KeyState.next] at taken
      split at taken
      · rename_i operation rest running queued
        cases taken
        exact released.runOperation running queued leaves
      · cases taken
  | resolve =>
      simp only [KeyState.next] at taken
      split at taken
      · rename_i command running
        obtain ⟨up, same⟩ := Option.ite_none_right_eq_some.mp taken
        cases same
        exact released.resolved running up
      · cases taken
  | reject =>
      simp only [KeyState.next] at taken
      split at taken
      · rename_i command running
        cases taken
        exact released.rejected running succeeds
      · cases taken
  | close =>
      cases taken
      refine ⟨sound, fun live => ?_, released.awaited⟩
      cases live
  | ready =>
      obtain ⟨down, same⟩ := Option.ite_none_left_eq_some.mp taken
      cases same
      exact released.connected (Bool.eq_false_iff.mpr down)

end Released

end KeyState

namespace RedisSubscriptionManager

variable {eventType : RealtimeEventType} {routingKey : String}

/-! ## Demanded channels -/

/-- **No demanded channel stays deaf after a reconnect.** When the connection is up, the key
has no operation and no subscribe of its channel has failed since the last 'ready', the
channel of a demanded key is subscribed on the current connection. -/
theorem demanded_is_subscribed (eventType : RealtimeEventType) (routingKey : String) (isUp : Bool)
    {manager : RedisSubscriptionManager} (reached : Reachable next (start isUp) manager)
    (up : manager.subscriber.isUp = true)
    (idle : manager.subscriptionOpByDemandKey.get (getDemandKey eventType routingKey) = none)
    (accepted : eventType.getChannel routingKey ∉ manager.subscriber.failedSubscribes)
    (demanded : 0 < manager.demandOf (getDemandKey eventType routingKey)) :
    eventType.getChannel routingKey ∈ manager.subscriber.connectionChannels ∧
      manager.stateOf (getDemandKey eventType routingKey) = some .subscribed := by
  have sound := @sound_view eventType routingKey manager isUp reached
  obtain ⟨running, queued⟩ := running_view_of_get_eq_none idle
  have known := (KeyState.amount_pos_iff sound.positive).mp demanded
  have state : (manager.view eventType routingKey).state = some .subscribed := by
    by_contra missing
    rcases sound.reconciled up known running missing with waiting | failed
    · rw [queued] at waiting
      cases waiting
    · exact accepted (of_decide_eq_true failed)
  exact ⟨of_decide_eq_true (sound.subscribed state).2, state⟩

/-- A run with an outage: the channel is subscribed, the connection is lost and restored, and
the reconciliation subscribes the channel again. -/
theorem demanded_is_subscribed_sample :
    ∃ manager : RedisSubscriptionManager,
      0 < manager.demandOf (getDemandKey .factionPresenceChanged "f") ∧
        RealtimeEventType.getChannel .factionPresenceChanged "f" ∈
          manager.subscriber.connectionChannels ∧
        manager.stateOf (getDemandKey .factionPresenceChanged "f") = some .subscribed := by
  obtain ⟨manager, reached, facts⟩ := exists_reachable_of_execute next (start true)
    [.incrementDemand .factionPresenceChanged "f",
      .runNext (getDemandKey .factionPresenceChanged "f"),
      .resolve (getDemandKey .factionPresenceChanged "f"), .close, .ready,
      .runNext (getDemandKey .factionPresenceChanged "f"),
      .resolve (getDemandKey .factionPresenceChanged "f")]
    (fun manager => manager.subscriber.isUp ∧
      (manager.subscriptionOpByDemandKey.get
        (getDemandKey .factionPresenceChanged "f")).isNone ∧
      RealtimeEventType.getChannel .factionPresenceChanged "f" ∉
        manager.subscriber.failedSubscribes ∧
      0 < manager.demandOf (getDemandKey .factionPresenceChanged "f"))
    (by decide +kernel)
  obtain ⟨up, idle, accepted, demanded⟩ := of_decide_eq_true facts
  exact ⟨manager, demanded, demanded_is_subscribed .factionPresenceChanged "f" true reached up
    (Option.isNone_iff_eq_none.mp idle) accepted demanded⟩

/-! ## Channels without demand -/

/-- No unsubscribe is rejected. -/
def UnsubscribesSucceed (manager : RedisSubscriptionManager) : Action → Prop
  | .reject demandKey =>
      (manager.chainOf demandKey).running.map SubscriberCommand.kind ≠ some .unsubscribe
  | _ => True

/-- A decrement that takes the demand of the key to zero, while the client holds the key's
channel, finds the key subscribed. -/
def LeavesSubscribed (eventType : RealtimeEventType) (routingKey : String)
    (manager : RedisSubscriptionManager) : Action → Prop
  | .runNext demandKey =>
      demandKey = getDemandKey eventType routingKey →
        (manager.chainOf demandKey).queued.head? = some .decrement →
        manager.demandOf demandKey = 1 →
        eventType.getChannel routingKey ∈ manager.subscriber.channels →
        manager.stateOf demandKey = some .subscribed
  | _ => True

instance (manager : RedisSubscriptionManager) :
    (action : Action) → Decidable (manager.UnsubscribesSucceed action)
  | .reject _ => inferInstanceAs (Decidable (_ ≠ _))
  | .incrementDemand _ _ | .decrementDemand _ _ | .runNext _ | .resolve _ | .close | .ready =>
      inferInstanceAs (Decidable True)

instance (eventType : RealtimeEventType) (routingKey : String)
    (manager : RedisSubscriptionManager) :
    (action : Action) → Decidable (manager.LeavesSubscribed eventType routingKey action)
  | .runNext _ => inferInstanceAs (Decidable (_ → _ → _ → _ → _))
  | .incrementDemand _ _ | .decrementDemand _ _ | .resolve _ | .reject _ | .close | .ready =>
      inferInstanceAs (Decidable True)

/-- What the two conditions are to the key. -/
theorem keyed_of_succeed_of_leaves {manager : RedisSubscriptionManager} {action : Action}
    {keyed : KeyAction} (succeed : manager.UnsubscribesSucceed action)
    (leaves : manager.LeavesSubscribed eventType routingKey action)
    (known : keyAction eventType routingKey action = some keyed) :
    (manager.view eventType routingKey).UnsubscribeSucceeds keyed ∧
      (manager.view eventType routingKey).LeavesSubscribed keyed := by
  cases action with
  | incrementDemand other otherKey =>
      obtain ⟨-, same⟩ := Option.ite_none_right_eq_some.mp known
      cases same
      exact ⟨trivial, trivial⟩
  | decrementDemand other otherKey =>
      obtain ⟨-, same⟩ := Option.ite_none_right_eq_some.mp known
      cases same
      exact ⟨trivial, trivial⟩
  | runNext demandKey =>
      obtain ⟨rfl, same⟩ := Option.ite_none_right_eq_some.mp known
      cases same
      refine ⟨trivial, fun first last held => ?_⟩
      exact leaves rfl first last (of_decide_eq_true held)
  | resolve demandKey =>
      obtain ⟨-, same⟩ := Option.ite_none_right_eq_some.mp known
      cases same
      exact ⟨trivial, trivial⟩
  | reject demandKey =>
      obtain ⟨rfl, same⟩ := Option.ite_none_right_eq_some.mp known
      cases same
      refine ⟨fun isFresh running => succeed ?_, trivial⟩
      rw [show (manager.chainOf (getDemandKey eventType routingKey)).running =
        some ⟨.unsubscribe, isFresh⟩ from running]
      rfl
  | close =>
      cases known
      exact ⟨trivial, trivial⟩
  | ready =>
      cases known
      exact ⟨trivial, trivial⟩

/-- **A channel without demand is not subscribed**, when no unsubscribe fails and no decrement
takes the demand to zero while the client holds the channel and the key is not subscribed. -/
theorem undemanded_is_not_subscribed (eventType : RealtimeEventType) (routingKey : String)
    (isUp : Bool) {manager : RedisSubscriptionManager}
    (reached : Reaches next (fun manager action => manager.UnsubscribesSucceed action ∧
      manager.LeavesSubscribed eventType routingKey action) (start isUp) manager)
    (idle : manager.subscriptionOpByDemandKey.get (getDemandKey eventType routingKey) = none)
    (unwanted : manager.demandOf (getDemandKey eventType routingKey) = 0) :
    eventType.getChannel routingKey ∉ manager.subscriber.connectionChannels := by
  have released : (manager.view eventType routingKey).Released :=
    (reaches_view (fun key action => key.UnsubscribeSucceeds action ∧ key.LeavesSubscribed action)
      (fun _ _ _ guarded known => keyed_of_succeed_of_leaves guarded.1 guarded.2 known)
      reached).invariant (.start isUp)
      fun _ _ _ released guarded taken => released.next guarded.1 guarded.2 taken
  obtain ⟨running, -⟩ := running_view_of_get_eq_none idle
  have none : (manager.view eventType routingKey).demand = none := by
    by_contra demanded
    have positive := (KeyState.amount_pos_iff released.sound.positive).mpr
      (Option.isSome_iff_ne_none.mpr demanded)
    rw [amount_view, unwanted] at positive
    exact lt_irrefl 0 positive
  intro live
  have held := released.live (decide_eq_true live)
  cases (released.isHeld_eq_false running none).symm.trans held

/-- The key is demanded, subscribed, lives through an outage and is left afterwards. -/
theorem undemanded_is_not_subscribed_sample :
    ∃ manager : RedisSubscriptionManager,
      manager.demandOf (getDemandKey .factionPresenceChanged "f") = 0 ∧
        RealtimeEventType.getChannel .factionPresenceChanged "f" ∉
          manager.subscriber.connectionChannels := by
  obtain ⟨manager, reached, facts⟩ := exists_reachable_of_execute
    (admitted next fun manager action => manager.UnsubscribesSucceed action ∧
      manager.LeavesSubscribed .factionPresenceChanged "f" action) (start true)
    [.incrementDemand .factionPresenceChanged "f",
      .runNext (getDemandKey .factionPresenceChanged "f"),
      .resolve (getDemandKey .factionPresenceChanged "f"), .close, .ready,
      .runNext (getDemandKey .factionPresenceChanged "f"),
      .resolve (getDemandKey .factionPresenceChanged "f"),
      .decrementDemand .factionPresenceChanged "f",
      .runNext (getDemandKey .factionPresenceChanged "f"),
      .resolve (getDemandKey .factionPresenceChanged "f")]
    (fun manager => manager.subscriber.isUp ∧
      (manager.subscriptionOpByDemandKey.get
        (getDemandKey .factionPresenceChanged "f")).isNone ∧
      manager.demandOf (getDemandKey .factionPresenceChanged "f") = 0)
    (by decide +kernel)
  obtain ⟨-, idle, unwanted⟩ := of_decide_eq_true facts
  exact ⟨manager, unwanted, undemanded_is_not_subscribed .factionPresenceChanged "f" true
    (.of_admitted reached) (Option.isNone_iff_eq_none.mp idle) unwanted⟩

/-- The last client leaves while the connection is down. The decrement finds the key idle and
issues no unsubscribe, and the new connection subscribes the channel again, for nobody. -/
theorem undemanded_channel_stays_subscribed :
    ¬ ∀ (eventType : RealtimeEventType) (routingKey : String) (isUp : Bool)
      (manager : RedisSubscriptionManager),
      Reaches next UnsubscribesSucceed (start isUp) manager → manager.subscriber.isUp = true →
      manager.subscriptionOpByDemandKey.get (getDemandKey eventType routingKey) = none →
      manager.demandOf (getDemandKey eventType routingKey) = 0 →
      eventType.getChannel routingKey ∉ manager.subscriber.connectionChannels := by
  intro claimed
  obtain ⟨manager, reached, facts⟩ := exists_reachable_of_execute
    (admitted next UnsubscribesSucceed) (start true)
    [.incrementDemand .factionPresenceChanged "f",
      .runNext (getDemandKey .factionPresenceChanged "f"),
      .resolve (getDemandKey .factionPresenceChanged "f"), .close,
      .decrementDemand .factionPresenceChanged "f",
      .runNext (getDemandKey .factionPresenceChanged "f"), .ready]
    (fun manager => manager.subscriber.isUp ∧
      (manager.subscriptionOpByDemandKey.get
        (getDemandKey .factionPresenceChanged "f")).isNone ∧
      manager.demandOf (getDemandKey .factionPresenceChanged "f") = 0 ∧
      RealtimeEventType.getChannel .factionPresenceChanged "f" ∈
        manager.subscriber.connectionChannels)
    (by decide +kernel)
  obtain ⟨up, idle, unwanted, live⟩ := of_decide_eq_true facts
  exact claimed .factionPresenceChanged "f" true manager (.of_admitted reached) up
    (Option.isNone_iff_eq_none.mp idle) unwanted live

end RedisSubscriptionManager

end EliteHubVault
