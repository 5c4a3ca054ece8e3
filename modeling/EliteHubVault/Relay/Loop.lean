import EliteHubVault.Relay.Batches

/-!
# The loop of the relay

`start` calls `loop`, which takes one transaction after the other until it finds `shouldStop`
set. `stop` sets it and waits for the call that `loopPromise` names. Calls of `loop` run
concurrently with everything else, so the calls that have not returned are part of the state
here, each with what it waits for. A call is known by its number.

The batches themselves are in `Relay.next`; `follow` is what the loop does along with each of its
steps.
-/

set_option autoImplicit false

namespace EliteHubVault

open Library

/-- What a call of `loop` waits for: the transaction before it has read its batch, the rest of
the transaction, or the end of a sleep. -/
inductive LoopStage where
  | transaction
  | batch
  | sleep
  deriving DecidableEq

structure EventOutboxRelay where
  isRunning : Bool
  shouldStop : Bool
  loopPromise : Option ℕ
  hadRecentError : Bool
  loops : OrderedMap ℕ LoopStage
  calls : ℕ

namespace EventOutboxRelay

def initial : EventOutboxRelay where
  isRunning := false
  shouldStop := false
  loopPromise := none
  hadRecentError := false
  loops := .empty
  calls := 0

def setStage (loop : ℕ) (stage : LoopStage) (relay : EventOutboxRelay) : EventOutboxRelay :=
  { relay with loops := relay.loops.set loop stage }

/-- `while (!this.shouldStop)`: the call returns or begins a transaction. -/
def testShouldStop (loop : ℕ) (relay : EventOutboxRelay) : EventOutboxRelay :=
  if relay.shouldStop then { relay with loops := relay.loops.delete loop }
  else relay.setStage loop .transaction

def start (relay : EventOutboxRelay) : EventOutboxRelay :=
  if relay.isRunning then relay
  else testShouldStop relay.calls { relay with
    isRunning := true
    shouldStop := false
    loopPromise := some relay.calls
    calls := relay.calls + 1 }

/-- `stop` up to its `await`, with the promise that it awaits, if it has not returned. -/
def stop (relay : EventOutboxRelay) : EventOutboxRelay × Option (Option ℕ) :=
  if relay.isRunning then ({ relay with shouldStop := true }, some relay.loopPromise)
  else (relay, none)

/-- `stop` after its `await`. -/
def afterStop (relay : EventOutboxRelay) : EventOutboxRelay := { relay with isRunning := false }

/-- The promise is settled: the call of `loop` has returned, or there is none. -/
def IsSettled (relay : EventOutboxRelay) (promise : Option ℕ) : Prop :=
  ∀ loop ∈ promise, relay.loops.get loop = none

instance (relay : EventOutboxRelay) (promise : Option ℕ) : Decidable (relay.IsSettled promise) :=
  inferInstanceAs (Decidable (∀ loop ∈ promise, relay.loops.get loop = none))

/-- The rest of the loop's body after a transaction. -/
def afterBatch (loop processedCount : ℕ) (relay : EventOutboxRelay) : EventOutboxRelay :=
  let relay := { relay with hadRecentError := false }
  if processedCount = 0 then relay.setStage loop .sleep else relay.testShouldStop loop

/-- The `catch` of the loop's body. -/
def catchError (loop : ℕ) (relay : EventOutboxRelay) : EventOutboxRelay :=
  { relay.setStage loop .sleep with hadRecentError := true }

/-- The transaction fails before its batch is read. -/
def failTransaction (loop : ℕ) (relay : EventOutboxRelay) : Option EventOutboxRelay :=
  if relay.loops.get loop = some .transaction then some (relay.catchError loop) else none

def endSleep (loop : ℕ) (relay : EventOutboxRelay) : Option EventOutboxRelay :=
  if relay.loops.get loop = some .sleep then some (relay.testShouldStop loop) else none

/-- The loop of an action of the relay, and where the loop has to be. -/
def stageOf : RelayAction → ℕ × LoopStage
  | .fetchBatch loop _ => (loop, .transaction)
  | .prepareRow loop => (loop, .batch)
  | .publish loop => (loop, .batch)
  | .deleteOutboxRow loop => (loop, .batch)
  | .commit loop => (loop, .batch)
  | .fail loop => (loop, .batch)

/-- How the loop goes on after a step of its transaction; `processedCount` is the number of rows
of the batch. -/
def proceed (processedCount : ℕ → ℕ) (relay : EventOutboxRelay) : RelayAction → EventOutboxRelay
  | .fetchBatch loop _ => relay.setStage loop .batch
  | .prepareRow _ => relay
  | .publish _ => relay
  | .deleteOutboxRow _ => relay
  | .commit loop => relay.afterBatch loop (processedCount loop)
  | .fail loop => relay.catchError loop

def follow (processedCount : ℕ → ℕ) (relay : EventOutboxRelay) (action : RelayAction) :
    Option EventOutboxRelay :=
  if relay.loops.get (stageOf action).1 = some (stageOf action).2 then
    some (relay.proceed processedCount action)
  else none

end EventOutboxRelay

/-- How many rows the batch of a loop has handled. -/
def Relay.processedCount {K : Type} (relay : Relay K) (loop : ℕ) : ℕ :=
  ((relay.batches.get loop).map fun batch => batch.handled.length).getD 0

namespace EventOutboxRelay

variable {relay : EventOutboxRelay} {awaited : Option (Option ℕ)} {loop other : ℕ}
  {stage stage' : LoopStage}

/-! ## What the methods do to the calls of `loop` -/

@[simp] theorem loops_setStage (relay : EventOutboxRelay) (loop : ℕ) (stage : LoopStage) :
    (relay.setStage loop stage).loops = relay.loops.set loop stage := rfl

theorem get_testShouldStop (relay : EventOutboxRelay) (loop other : ℕ) :
    (relay.testShouldStop loop).loops.get other =
      if other = loop then if relay.shouldStop then none else some .transaction
      else relay.loops.get other := by
  unfold testShouldStop
  split <;> simp [OrderedMap.get_delete, OrderedMap.get_set]

/-- What a test of `shouldStop` leaves alone. -/
theorem testShouldStop_fields (relay : EventOutboxRelay) (loop : ℕ) :
    (relay.testShouldStop loop).isRunning = relay.isRunning ∧
      (relay.testShouldStop loop).shouldStop = relay.shouldStop ∧
      (relay.testShouldStop loop).loopPromise = relay.loopPromise := by
  unfold testShouldStop
  split <;> exact ⟨rfl, rfl, rfl⟩

theorem afterBatch_fields (relay : EventOutboxRelay) (loop processedCount : ℕ) :
    (relay.afterBatch loop processedCount).isRunning = relay.isRunning ∧
      (relay.afterBatch loop processedCount).loopPromise = relay.loopPromise := by
  unfold afterBatch
  dsimp only
  split
  · exact ⟨rfl, rfl⟩
  · exact ⟨(testShouldStop_fields _ loop).1, (testShouldStop_fields _ loop).2.2⟩

/-- What a batch leaves alone. -/
theorem follow_fields {processedCount : ℕ → ℕ} {action : RelayAction} {relay' : EventOutboxRelay}
    (followed : relay.follow processedCount action = some relay') :
    relay'.isRunning = relay.isRunning ∧ relay'.loopPromise = relay.loopPromise := by
  obtain ⟨-, same⟩ := Option.ite_none_right_eq_some.mp followed
  cases same
  cases action with
  | fetchBatch loop rows => exact ⟨rfl, rfl⟩
  | prepareRow loop => exact ⟨rfl, rfl⟩
  | publish loop => exact ⟨rfl, rfl⟩
  | deleteOutboxRow loop => exact ⟨rfl, rfl⟩
  | commit loop => exact afterBatch_fields relay loop _
  | fail loop => exact ⟨rfl, rfl⟩

/-! ## The invariant -/

/-- **What holds of the relay**, with the promise that a pending call of `stop` awaits. Only the
call of `loop` that `loopPromise` names has not returned, and none when the relay does not run.
As long as the relay runs and is not being stopped, that call is there. -/
structure Sound (awaited : Option (Option ℕ)) (relay : EventOutboxRelay) : Prop where
  alone : ∀ loop stage, relay.loops.get loop = some stage →
    relay.isRunning = true ∧ relay.loopPromise = some loop
  runs : relay.isRunning = true → awaited = none → relay.shouldStop = false ∧
    ∃ loop stage, relay.loops.get loop = some stage
  stops : ∀ promise, awaited = some promise → relay.isRunning = true ∧
    relay.shouldStop = true ∧ promise = relay.loopPromise

namespace Sound

theorem initial : EventOutboxRelay.initial.Sound none where
  alone _ _ live := absurd live (Option.some_ne_none _).symm
  runs running _ := absurd running Bool.false_ne_true
  stops _ pending := absurd pending (Option.some_ne_none _).symm

theorem loop_unique (sound : relay.Sound awaited) (live : relay.loops.get loop = some stage)
    (liveOther : relay.loops.get other = some stage') : other = loop :=
  Option.some_inj.mp
    ((sound.alone other stage' liveOther).2.symm.trans (sound.alone loop stage live).2)

/-- A call goes on to another stage. -/
theorem setStage (sound : relay.Sound awaited) (live : relay.loops.get loop = some stage)
    (stage' : LoopStage) : (relay.setStage loop stage').Sound awaited where
  alone other otherStage liveOther := by
    rw [loops_setStage, OrderedMap.get_set] at liveOther
    split at liveOther
    · rename_i same
      exact same ▸ sound.alone loop stage live
    · exact sound.alone other otherStage liveOther
  runs running pending :=
    ⟨(sound.runs running pending).1, loop, stage', OrderedMap.get_set_self _ _ _⟩
  stops := sound.stops

/-- A call returns or begins a transaction. -/
theorem testShouldStop (sound : relay.Sound awaited) (live : relay.loops.get loop = some stage) :
    (relay.testShouldStop loop).Sound awaited := by
  obtain ⟨isRunning, shouldStop, loopPromise⟩ := testShouldStop_fields relay loop
  refine ⟨fun other otherStage liveOther => ?_, fun running pending => ?_, ?_⟩
  · rw [isRunning, loopPromise]
    rw [get_testShouldStop] at liveOther
    split at liveOther
    · rename_i same
      exact same ▸ sound.alone loop stage live
    · exact sound.alone other otherStage liveOther
  · rw [isRunning] at running
    obtain ⟨goesOn, -⟩ := sound.runs running pending
    refine ⟨shouldStop.trans goesOn, loop, .transaction, ?_⟩
    rw [get_testShouldStop, goesOn]
    simp
  · rw [isRunning, shouldStop, loopPromise]
    exact sound.stops

theorem start (sound : relay.Sound awaited) : relay.start.Sound awaited := by
  unfold EventOutboxRelay.start
  split
  · exact sound
  · rename_i idle
    have none_ : ∀ loop, relay.loops.get loop = none := fun loop => by
      cases live : relay.loops.get loop with
      | none => rfl
      | some stage => exact absurd (sound.alone loop stage live).1 idle
    rw [EventOutboxRelay.testShouldStop, if_neg Bool.false_ne_true]
    refine ⟨fun loop stage live => ?_, fun _ _ => ?_, fun promise pending => ?_⟩
    · rw [loops_setStage, OrderedMap.get_set] at live
      split at live
      · rename_i same
        exact ⟨rfl, congrArg some same.symm⟩
      · rw [none_] at live
        cases live
    · exact ⟨rfl, relay.calls, .transaction, OrderedMap.get_set_self _ _ _⟩
    · exact absurd (sound.stops promise pending).1 idle

/-- `stop` is called when no other call of it is pending. -/
theorem stop (sound : relay.Sound none) : relay.stop.1.Sound relay.stop.2 := by
  unfold EventOutboxRelay.stop
  split
  · rename_i running
    refine ⟨sound.alone, fun _ pending => absurd pending (Option.some_ne_none _), ?_⟩
    intro promise pending
    exact ⟨running, rfl, (Option.some_inj.mp pending).symm⟩
  · exact sound

/-- `stop` goes on when the call that it awaits has returned. -/
theorem afterStop {promise : Option ℕ} (sound : relay.Sound (some promise))
    (settled : relay.IsSettled promise) : relay.afterStop.Sound none := by
  obtain ⟨-, -, rfl⟩ := sound.stops promise rfl
  refine ⟨fun loop stage live => ?_, fun running _ => absurd running Bool.false_ne_true,
    fun _ pending => absurd pending (Option.some_ne_none _).symm⟩
  have named := (sound.alone loop stage live).2
  exact absurd (live.symm.trans (settled loop named)) (Option.some_ne_none _)

theorem afterBatch (sound : relay.Sound awaited) (live : relay.loops.get loop = some stage)
    (processedCount : ℕ) : (relay.afterBatch loop processedCount).Sound awaited := by
  have same : Sound awaited { relay with hadRecentError := false } :=
    ⟨sound.alone, sound.runs, sound.stops⟩
  unfold EventOutboxRelay.afterBatch
  dsimp only
  split
  · exact same.setStage live .sleep
  · exact same.testShouldStop live

theorem catchError (sound : relay.Sound awaited) (live : relay.loops.get loop = some stage) :
    (relay.catchError loop).Sound awaited := by
  have slept := sound.setStage live .sleep
  exact ⟨slept.alone, slept.runs, slept.stops⟩

theorem failTransaction {relay' : EventOutboxRelay} (sound : relay.Sound awaited)
    (taken : relay.failTransaction loop = some relay') : relay'.Sound awaited := by
  obtain ⟨live, same⟩ := Option.ite_none_right_eq_some.mp taken
  cases same
  exact sound.catchError live

theorem endSleep {relay' : EventOutboxRelay} (sound : relay.Sound awaited)
    (taken : relay.endSleep loop = some relay') : relay'.Sound awaited := by
  obtain ⟨live, same⟩ := Option.ite_none_right_eq_some.mp taken
  cases same
  exact sound.testShouldStop live

theorem follow {processedCount : ℕ → ℕ} {action : RelayAction} {relay' : EventOutboxRelay}
    (sound : relay.Sound awaited) (taken : relay.follow processedCount action = some relay') :
    relay'.Sound awaited := by
  obtain ⟨live, same⟩ := Option.ite_none_right_eq_some.mp taken
  cases same
  cases action with
  | fetchBatch loop rows => exact sound.setStage live .batch
  | prepareRow loop => exact sound
  | publish loop => exact sound
  | deleteOutboxRow loop => exact sound
  | commit loop => exact sound.afterBatch live _
  | fail loop => exact sound.catchError live

end Sound

end EventOutboxRelay

/-! ## The loop and its transaction -/

section Transaction

variable {K : Type} {outbox : List (OutboxRow K)} {powers : List SystemPowerplayPowerRow}

namespace EventOutboxRelay

/-- Exactly the calls of `loop` that are in a batch have one. -/
def Holds (batches : Relay K) (relay : EventOutboxRelay) : Prop :=
  ∀ loop, (batches.batches.get loop).isSome ↔ relay.loops.get loop = some .batch

variable {relay relay' : EventOutboxRelay} {batches batches' : Relay K} {loop : ℕ}
  {stage : LoopStage}

/-- A call without a batch goes on without one. -/
theorem Holds.of_other (holds : relay.Holds batches) (live : relay.loops.get loop ≠ some .batch)
    (others : ∀ other, other ≠ loop → relay'.loops.get other = relay.loops.get other)
    (still : relay'.loops.get loop ≠ some .batch) : relay'.Holds batches := by
  intro other
  by_cases same : other = loop
  · subst same
    rw [holds other]
    exact ⟨fun found => absurd found live, fun found => absurd found still⟩
  · rw [others other same]
    exact holds other

/-- The batch of a call ends. -/
theorem Holds.delete (loop : ℕ) (holds : relay.Holds batches)
    (others : ∀ other, other ≠ loop → relay'.loops.get other = relay.loops.get other)
    (ended : relay'.loops.get loop ≠ some .batch)
    (deleted : batches'.batches = batches.batches.delete loop) : relay'.Holds batches' := by
  intro other
  rw [deleted, OrderedMap.get_delete]
  split
  · rename_i same
    subst same
    exact ⟨fun found => absurd found Bool.false_ne_true, fun found => absurd found ended⟩
  · rename_i apart
    rw [others other apart]
    exact holds other

theorem get_afterBatch_of_ne {other : ℕ} (apart : other ≠ loop) (processedCount : ℕ) :
    (relay.afterBatch loop processedCount).loops.get other = relay.loops.get other := by
  unfold afterBatch
  dsimp only
  split
  · exact OrderedMap.get_set_of_ne _ _ apart
  · rw [get_testShouldStop, if_neg apart]

theorem get_testShouldStop_self (relay : EventOutboxRelay) (loop : ℕ) :
    (relay.testShouldStop loop).loops.get loop ≠ some .batch := by
  rw [get_testShouldStop, if_pos rfl]
  split <;> simp

theorem get_afterBatch_self (relay : EventOutboxRelay) (loop processedCount : ℕ) :
    (relay.afterBatch loop processedCount).loops.get loop ≠ some .batch := by
  unfold afterBatch
  dsimp only
  split
  · simp
  · exact get_testShouldStop_self _ loop

theorem get_catchError_self (relay : EventOutboxRelay) (loop : ℕ) :
    (relay.catchError loop).loops.get loop = some .sleep :=
  OrderedMap.get_set_self _ _ _

theorem get_catchError_of_ne {other : ℕ} (apart : other ≠ loop) :
    (relay.catchError loop).loops.get other = relay.loops.get other :=
  OrderedMap.get_set_of_ne _ _ apart

/-- The loop follows its transaction. -/
theorem Holds.follow {action : RelayAction} (holds : relay.Holds batches)
    (taken : batches.Step outbox powers action batches')
    (followed : relay.follow batches.processedCount action = some relay') :
    relay'.Holds batches' := by
  obtain ⟨live, same⟩ := Option.ite_none_right_eq_some.mp followed
  cases same
  -- A step within the batch replaces it.
  have within : ∀ {loop : ℕ} (batch : Batch K), relay.loops.get loop = some .batch →
      ∀ after : Relay K, after.batches = batches.batches.set loop batch → relay.Holds after := by
    intro loop batch inBatch after replaced other
    rw [replaced, OrderedMap.get_set]
    split
    · rename_i same
      simp [same, inBatch]
    · exact holds other
  cases taken with
  | @fetchBatch loop rows idle fetch =>
      intro other
      dsimp only [proceed, Relay.setBatch]
      rw [loops_setStage, OrderedMap.get_set, OrderedMap.get_set]
      split
      · simp
      · exact holds other
  | prepareRow found => exact within _ live _ rfl
  | publish found => exact within _ live _ rfl
  | deleteOutboxRow found => exact within _ live _ rfl
  | @commit loop handled found =>
      exact holds.delete loop (fun _ apart => get_afterBatch_of_ne apart _)
        (get_afterBatch_self relay loop _) rfl
  | @fail loop batch found =>
      refine holds.delete loop (fun _ apart => get_catchError_of_ne apart) ?_ rfl
      rw [proceed, get_catchError_self]
      simp

end EventOutboxRelay

end Transaction

end EliteHubVault
