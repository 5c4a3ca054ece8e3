import EliteHubVault.Library.Runs
import EliteHubVault.Sse.RedisSubscriptionManager

/-!
# The life of one demand key

`KeyState` is what the manager and the Redis client know about one key: an abstract machine
of its own, with the same steps. `view` reads it off a manager. A step of the manager is a
step of the key that it is about, and of every key when the connection is lost or restored;
it leaves all other keys as they are. So every key of a manager lives through a run of the
abstract machine.

`Sound` is the invariant of a key. A demanded key that is at rest while the connection is up
is subscribed, or a reconciliation is still queued, or a subscribe has failed.
-/

set_option autoImplicit false

namespace EliteHubVault

open Library

/-! ## The machine of one key -/

@[ext] structure KeyState where
  isUp : Bool
  demand : Option ℤ
  state : Option SubscriptionState
  running : Option SubscriberCommand
  queued : List DemandOperation
  isHeld : Bool
  isLive : Bool
  hasFailed : Bool

inductive KeyAction where
  | increment | decrement | runNext | resolve | reject | close | ready
deriving DecidableEq

namespace KeyState

def amount (key : KeyState) : ℤ := key.demand.getD 0

def subscribeIfNeeded (key : KeyState) : KeyState :=
  if key.amount ≤ 0 ∨ key.state = some .subscribed ∨ key.state = some .subscribing then key
  else { key with state := some .subscribing, running := some ⟨.subscribe, true⟩ }

def unsubscribeIfNeeded (key : KeyState) : KeyState :=
  if 0 < key.amount ∨ key.state = none ∨ key.state = some .idle ∨
      key.state = some .unsubscribing then key
  else { key with state := some .unsubscribing, running := some ⟨.unsubscribe, true⟩ }

def runOperation (key : KeyState) : DemandOperation → KeyState
  | .increment => { key with demand := some (key.amount + 1) }.subscribeIfNeeded
  | .decrement =>
      if key.amount ≤ 0 then key
      else if key.amount - 1 = 0 then { key with demand := none }.unsubscribeIfNeeded
      else { key with demand := some (key.amount - 1) }
  | .reconcile => key.subscribeIfNeeded

/-- Redis has executed the command, and the operation goes on. -/
def resolved (key : KeyState) : CommandKind → KeyState
  | .subscribe =>
      let subscribed := { key with
        state := some .subscribed, running := none, isHeld := true, isLive := true }
      if 0 < key.amount then subscribed else subscribed.unsubscribeIfNeeded
  | .unsubscribe =>
      { key with
        state := some (if key.amount ≤ 0 then .idle else .subscribed)
        running := none, isHeld := false, isLive := false }

/-- The command has failed, and the operation ends. -/
def rejected (key : KeyState) (command : SubscriberCommand) : KeyState :=
  { key with
    state := some (if command.kind = .unsubscribe ∧ 0 < key.amount then .subscribed else .idle)
    running := none
    hasFailed := key.hasFailed || (command.kind = .subscribe && command.isFresh) }

/-- The connection is lost. -/
def closed (key : KeyState) : KeyState :=
  { key with
    isUp := false
    isLive := false
    state := key.state.map fun state =>
      if state = .subscribed ∨ state = .subscribing then .idle else state }

/-- A new connection. -/
def connected (key : KeyState) : KeyState :=
  { key with
    isUp := true
    isLive := key.isHeld
    hasFailed := false
    running := key.running.map fun command => { command with isFresh := false }
    state := if key.demand.isSome then some .idle else key.state
    queued := key.queued ++ if key.demand.isSome then [.reconcile] else [] }

def next (key : KeyState) : KeyAction → Option KeyState
  | .increment => some { key with queued := key.queued ++ [.increment] }
  | .decrement => some { key with queued := key.queued ++ [.decrement] }
  | .runNext =>
      match key.running, key.queued with
      | none, operation :: rest => some ({ key with queued := rest }.runOperation operation)
      | _, _ => none
  | .resolve =>
      match key.running with
      | some command => if key.isUp then some (key.resolved command.kind) else none
      | none => none
  | .reject =>
      match key.running with
      | some command => some (key.rejected command)
      | none => none
  | .close => some key.closed
  | .ready => if key.isUp then none else some key.connected

/-- A key that nobody has asked for. -/
def start (isUp : Bool) : KeyState := ⟨isUp, none, none, none, [], false, false, false⟩

/-! ## What the functions leave alone -/

section Frame

variable (key : KeyState)

@[simp] theorem demand_subscribeIfNeeded : key.subscribeIfNeeded.demand = key.demand := by
  unfold subscribeIfNeeded
  split <;> rfl

@[simp] theorem isHeld_subscribeIfNeeded : key.subscribeIfNeeded.isHeld = key.isHeld := by
  unfold subscribeIfNeeded
  split <;> rfl

@[simp] theorem isLive_subscribeIfNeeded : key.subscribeIfNeeded.isLive = key.isLive := by
  unfold subscribeIfNeeded
  split <;> rfl

@[simp] theorem isHeld_unsubscribeIfNeeded : key.unsubscribeIfNeeded.isHeld = key.isHeld := by
  unfold unsubscribeIfNeeded
  split <;> rfl

@[simp] theorem isLive_unsubscribeIfNeeded : key.unsubscribeIfNeeded.isLive = key.isLive := by
  unfold unsubscribeIfNeeded
  split <;> rfl

@[simp] theorem demand_unsubscribeIfNeeded : key.unsubscribeIfNeeded.demand = key.demand := by
  unfold unsubscribeIfNeeded
  split <;> rfl

@[simp] theorem queued_subscribeIfNeeded : key.subscribeIfNeeded.queued = key.queued := by
  unfold subscribeIfNeeded
  split <;> rfl

@[simp] theorem queued_unsubscribeIfNeeded : key.unsubscribeIfNeeded.queued = key.queued := by
  unfold unsubscribeIfNeeded
  split <;> rfl

@[simp] theorem amount_subscribeIfNeeded : key.subscribeIfNeeded.amount = key.amount := by
  rw [amount, demand_subscribeIfNeeded]
  rfl

@[simp] theorem amount_unsubscribeIfNeeded : key.unsubscribeIfNeeded.amount = key.amount := by
  rw [amount, demand_unsubscribeIfNeeded]
  rfl

/-- An operation only issues commands: Redis has not executed them yet. -/
@[simp] theorem isHeld_runOperation (operation : DemandOperation) :
    (key.runOperation operation).isHeld = key.isHeld := by
  cases operation with
  | increment => simp [runOperation]
  | reconcile => simp [runOperation]
  | decrement =>
      simp only [runOperation]
      split
      · rfl
      split
      · simp
      · rfl

@[simp] theorem isLive_runOperation (operation : DemandOperation) :
    (key.runOperation operation).isLive = key.isLive := by
  cases operation with
  | increment => simp [runOperation]
  | reconcile => simp [runOperation]
  | decrement =>
      simp only [runOperation]
      split
      · rfl
      split
      · simp
      · rfl

end Frame

/-! ## The invariant -/

/-- **The invariant of a key.** -/
structure Sound (key : KeyState) : Prop where
  positive : ∀ count, key.demand = some count → 0 < count
  subscribed : key.state = some .subscribed → key.isUp = true ∧ key.isLive = true
  atRest : key.running = none →
    key.state ≠ some .subscribing ∧ key.state ≠ some .unsubscribing
  subscribing : ∀ isFresh, key.running = some ⟨.subscribe, isFresh⟩ →
    key.demand.isSome = true ∧ (key.state = some .subscribing ∨ key.state = some .idle)
  unsubscribing : ∀ isFresh, key.running = some ⟨.unsubscribe, isFresh⟩ →
    key.demand = none ∧ key.state = some .unsubscribing
  reconciled : key.isUp = true → key.demand.isSome = true → key.running = none →
    key.state ≠ some .subscribed → .reconcile ∈ key.queued ∨ key.hasFailed = true
  resent : key.isUp = true → key.running = some ⟨.subscribe, false⟩ → .reconcile ∈ key.queued

theorem amount_pos_iff {key : KeyState} (positive : ∀ count, key.demand = some count → 0 < count) :
    0 < key.amount ↔ key.demand.isSome = true := by
  unfold amount
  cases demanded : key.demand with
  | none => simp
  | some count => simpa using positive count demanded

/-- What holds of a key between two commands, whether or not it is reconciled. -/
structure AtRest (key : KeyState) : Prop where
  positive : ∀ count, key.demand = some count → 0 < count
  subscribed : key.state = some .subscribed → key.isUp = true ∧ key.isLive = true
  running : key.running = none
  state : key.state ≠ some .subscribing ∧ key.state ≠ some .unsubscribing

theorem Sound.rest {key : KeyState} (sound : key.Sound) (running : key.running = none) :
    key.AtRest := ⟨sound.positive, sound.subscribed, running, sound.atRest running⟩

namespace AtRest

variable {key : KeyState}

/-- A key at rest is sound when it is reconciled. -/
theorem sound (rest : key.AtRest)
    (reconciled : key.isUp = true → key.demand.isSome = true → key.state ≠ some .subscribed →
      .reconcile ∈ key.queued ∨ key.hasFailed = true) : key.Sound where
  positive := rest.positive
  subscribed := rest.subscribed
  atRest _ := rest.state
  subscribing isFresh running := by
    rw [rest.running] at running
    cases running
  unsubscribing isFresh running := by
    rw [rest.running] at running
    cases running
  reconciled up demanded _ := reconciled up demanded
  resent _ running := by
    rw [rest.running] at running
    cases running

/-- After `subscribeIfNeeded` a demanded key is subscribed, or a fresh subscribe is awaited. -/
theorem sound_subscribeIfNeeded (rest : key.AtRest) : key.subscribeIfNeeded.Sound := by
  unfold subscribeIfNeeded
  split
  · rename_i unneeded
    refine rest.sound fun _ demanded notSubscribed => ?_
    rcases unneeded with low | subscribed | subscribing
    · exact absurd ((amount_pos_iff rest.positive).mpr demanded) (not_lt.mpr low)
    · exact absurd subscribed notSubscribed
    · exact absurd subscribing rest.state.1
  · rename_i needed
    rw [not_or, not_le] at needed
    have demanded := (amount_pos_iff rest.positive).mp needed.1
    constructor
    · exact rest.positive
    · intro impossible
      cases impossible
    · intro impossible
      cases impossible
    · intro isFresh _
      exact ⟨demanded, .inl rfl⟩
    · intro isFresh impossible
      cases impossible
    · intro _ _ impossible
      cases impossible
    · intro _ impossible
      cases impossible

/-- After `unsubscribeIfNeeded` a key without demand awaits an unsubscribe or needs none. -/
theorem sound_unsubscribeIfNeeded (rest : key.AtRest) (unwanted : key.demand = none) :
    key.unsubscribeIfNeeded.Sound := by
  unfold unsubscribeIfNeeded
  split
  · refine rest.sound fun _ demanded => ?_
    rw [unwanted] at demanded
    cases demanded
  · constructor
    · exact rest.positive
    · intro impossible
      cases impossible
    · intro impossible
      cases impossible
    · intro isFresh impossible
      cases impossible
    · intro isFresh _
      exact ⟨unwanted, rfl⟩
    · intro _ _ impossible
      cases impossible
    · intro _ impossible
      cases impossible

end AtRest

namespace Sound

variable {key : KeyState}

theorem start (isUp : Bool) : (KeyState.start isUp).Sound := by
  refine AtRest.sound ⟨?_, ?_, rfl, ?_⟩ ?_
  · intro count impossible
    cases impossible
  · intro impossible
    cases impossible
  · exact ⟨nofun, nofun⟩
  · intro _ impossible
    cases impossible

/-- More queued operations change nothing. -/
theorem enqueue (sound : key.Sound) (operation : DemandOperation) :
    Sound { key with queued := key.queued ++ [operation] } where
  positive := sound.positive
  subscribed := sound.subscribed
  atRest := sound.atRest
  subscribing := sound.subscribing
  unsubscribing := sound.unsubscribing
  reconciled up demanded running state :=
    (sound.reconciled up demanded running state).imp_left (List.mem_append_left _)
  resent up running := List.mem_append_left _ (sound.resent up running)

/-- The first queued operation may run. -/
theorem runOperation (sound : key.Sound) {operation : DemandOperation}
    {rest : List DemandOperation} (running : key.running = none)
    (queued : key.queued = operation :: rest) :
    ({ key with queued := rest }.runOperation operation).Sound := by
  obtain ⟨positive, subscribed, -, state⟩ := sound.rest running
  have later : AtRest { key with queued := rest } := ⟨positive, subscribed, running, state⟩
  cases operation with
  | increment =>
      refine AtRest.sound_subscribeIfNeeded ⟨?_, subscribed, running, state⟩
      intro count same
      cases same
      have nonneg : 0 ≤ key.amount := by
        unfold amount
        cases demanded : key.demand with
        | none => simp
        | some count => exact (positive count demanded).le
      show 0 < key.amount + 1
      omega
  | reconcile => exact later.sound_subscribeIfNeeded
  | decrement =>
      have kept : key.isUp = true → key.demand.isSome = true → key.state ≠ some .subscribed →
          .reconcile ∈ rest ∨ key.hasFailed = true := by
        intro up demanded notSubscribed
        have before := sound.reconciled up demanded running notSubscribed
        rw [queued, List.mem_cons] at before
        rcases before with (impossible | inRest) | failed
        · cases impossible
        · exact .inl inRest
        · exact .inr failed
      simp only [KeyState.runOperation]
      split
      · exact later.sound kept
      split
      · refine AtRest.sound_unsubscribeIfNeeded ⟨?_, subscribed, running, state⟩ rfl
        intro count impossible
        cases impossible
      · rename_i positiveAmount notLast
        have demanded : key.demand.isSome = true :=
          (amount_pos_iff positive).mp (not_le.mp positiveAmount)
        refine AtRest.sound ⟨?_, subscribed, running, state⟩ fun up _ => kept up demanded
        intro count same
        cases same
        change ¬ key.amount ≤ 0 at positiveAmount
        change ¬ key.amount - 1 = 0 at notLast
        show 0 < key.amount - 1
        omega

theorem resolved (sound : key.Sound) {command : SubscriberCommand}
    (running : key.running = some command) (up : key.isUp = true) :
    (key.resolved command.kind).Sound := by
  obtain ⟨kind, isFresh⟩ := command
  cases kind with
  | subscribe =>
      obtain ⟨demanded, -⟩ := sound.subscribing isFresh running
      simp only [KeyState.resolved, if_pos ((amount_pos_iff sound.positive).mpr demanded)]
      refine AtRest.sound ⟨sound.positive, fun _ => ⟨up, rfl⟩, rfl, ⟨nofun, nofun⟩⟩ ?_
      intro _ _ notSubscribed
      exact absurd rfl notSubscribed
  | unsubscribe =>
      obtain ⟨unwanted, -⟩ := sound.unsubscribing isFresh running
      have nothing : key.amount ≤ 0 := by simp [amount, unwanted]
      simp only [KeyState.resolved, if_pos nothing]
      refine AtRest.sound ⟨sound.positive, nofun, rfl, ⟨nofun, nofun⟩⟩ ?_
      intro _ demanded
      rw [show key.demand = none from unwanted] at demanded
      cases demanded

theorem rejected (sound : key.Sound) {command : SubscriberCommand}
    (running : key.running = some command) : (key.rejected command).Sound := by
  obtain ⟨kind, isFresh⟩ := command
  cases kind with
  | subscribe =>
      refine AtRest.sound ⟨sound.positive, nofun, rfl, ⟨nofun, nofun⟩⟩ fun up _ _ => ?_
      cases isFresh with
      | true => exact .inr (by simp [KeyState.rejected])
      | false => exact .inl (sound.resent up running)
  | unsubscribe =>
      obtain ⟨unwanted, -⟩ := sound.unsubscribing isFresh running
      have nothing : ¬ 0 < key.amount := by simp [amount, unwanted]
      simp only [KeyState.rejected, nothing, and_false, if_false]
      refine AtRest.sound ⟨sound.positive, nofun, rfl, ⟨nofun, nofun⟩⟩ ?_
      intro _ demanded
      rw [show key.demand = none from unwanted] at demanded
      cases demanded

theorem closed (sound : key.Sound) : key.closed.Sound := by
  have notSubscribed : key.closed.state ≠ some .subscribed := by
    unfold KeyState.closed
    cases known : key.state with
    | none => simp
    | some state => cases state <;> simp
  constructor
  · exact sound.positive
  · intro subscribed
    exact absurd subscribed notSubscribed
  · intro running
    obtain ⟨notSubscribing, notUnsubscribing⟩ := sound.atRest running
    unfold KeyState.closed
    cases known : key.state with
    | none => simp
    | some state => cases state <;> simp_all
  · intro isFresh running
    obtain ⟨demanded, state⟩ := sound.subscribing isFresh running
    refine ⟨demanded, .inr ?_⟩
    unfold KeyState.closed
    rcases state with state | state <;> simp [state]
  · intro isFresh running
    obtain ⟨unwanted, state⟩ := sound.unsubscribing isFresh running
    refine ⟨unwanted, ?_⟩
    simp [KeyState.closed, state]
  · intro impossible
    cases impossible
  · intro impossible
    cases impossible

theorem connected (sound : key.Sound) (down : key.isUp = false) : key.connected.Sound := by
  have notSubscribed : key.state ≠ some .subscribed := by
    intro subscribed
    rw [(sound.subscribed subscribed).1] at down
    cases down
  have queues : key.demand.isSome = true → .reconcile ∈ key.connected.queued := by
    intro demanded
    simp [KeyState.connected, demanded]
  constructor
  · exact sound.positive
  · intro subscribed
    simp only [KeyState.connected] at subscribed
    split at subscribed
    · cases subscribed
    · exact absurd subscribed notSubscribed
  · intro running
    have before : key.running = none := Option.map_eq_none_iff.mp running
    simp only [KeyState.connected]
    split
    · exact ⟨nofun, nofun⟩
    · exact sound.atRest before
  · intro isFresh running
    obtain ⟨⟨kind, wasFresh⟩, before, same⟩ := Option.map_eq_some_iff.mp running
    cases same
    obtain ⟨demanded, -⟩ := sound.subscribing wasFresh before
    exact ⟨demanded, .inr (by simp [KeyState.connected, demanded])⟩
  · intro isFresh running
    obtain ⟨⟨kind, wasFresh⟩, before, same⟩ := Option.map_eq_some_iff.mp running
    cases same
    obtain ⟨unwanted, state⟩ := sound.unsubscribing wasFresh before
    exact ⟨unwanted, by simp [KeyState.connected, unwanted, state]⟩
  · intro _ demanded _ _
    exact .inl (queues demanded)
  · intro _ running
    obtain ⟨⟨kind, wasFresh⟩, before, same⟩ := Option.map_eq_some_iff.mp running
    cases same
    exact queues (sound.subscribing wasFresh before).1

/-- **Every step of a key keeps the invariant.** -/
theorem next {action : KeyAction} {key' : KeyState} (sound : key.Sound)
    (taken : key.next action = some key') : key'.Sound := by
  cases action with
  | increment =>
      cases taken
      exact sound.enqueue .increment
  | decrement =>
      cases taken
      exact sound.enqueue .decrement
  | runNext =>
      simp only [KeyState.next] at taken
      split at taken
      · rename_i operation rest running queued
        cases taken
        exact sound.runOperation running queued
      · cases taken
  | resolve =>
      simp only [KeyState.next] at taken
      split at taken
      · rename_i command running
        obtain ⟨up, same⟩ := Option.ite_none_right_eq_some.mp taken
        cases same
        exact sound.resolved running up
      · cases taken
  | reject =>
      simp only [KeyState.next] at taken
      split at taken
      · rename_i command running
        cases taken
        exact sound.rejected running
      · cases taken
  | close =>
      cases taken
      exact sound.closed
  | ready =>
      obtain ⟨down, same⟩ := Option.ite_none_left_eq_some.mp taken
      cases same
      exact sound.connected (Bool.eq_false_iff.mpr down)

end Sound

end KeyState

end EliteHubVault
