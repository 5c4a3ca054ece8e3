import EliteHubVault.Delivery.ApiServer
import EliteHubVault.Library.Progress
import EliteHubVault.Relay.BatchSteps

/-!
# Stopping the relay

While `stop` is pending, the relay's loop finishes its batch, or fails, and finds `shouldStop`
set; a relay that is stopped does nothing until Redis becomes ready again. The call of `stop`
returns in every run in which the relay's own steps are not put off for ever, whatever else
happens (`relay_stop_returns`).
-/

set_option autoImplicit false
set_option linter.unusedSectionVars false

namespace EliteHubVault

open Library

variable {K : Type} [Field K] [LinearOrder K] {P : Platform K}

/-! ## The rank of a loop that is being stopped -/

namespace EventOutboxRelay

variable {relay relay' : EventOutboxRelay} {batches batches' : Relay K} {loop : ℕ}

def stageRank : Option LoopStage → ℕ
  | none => 0
  | some .sleep => 1
  | some .batch => 2
  | some .transaction => 3

/-- What is left of the batch of a loop. -/
def batchRank (loop : ℕ) (batches : Relay K) : ℕ ×ₗ ℕ ×ₗ ℕ :=
  ((batches.batches.get loop).map Batch.rank).getD (toLex (0, toLex (0, 0)))

/-- How far a loop is from its return. -/
def stopRank (loop : ℕ) (batches : Relay K) (relay : EventOutboxRelay) : ℕ ×ₗ ℕ ×ₗ ℕ ×ₗ ℕ :=
  toLex (stageRank (relay.loops.get loop), batchRank loop batches)

theorem stopRank_lt_of_stage
    (less : stageRank (relay'.loops.get loop) < stageRank (relay.loops.get loop)) :
    relay'.stopRank loop batches' < relay.stopRank loop batches :=
  Prod.Lex.left _ _ less

/-- After a test of `shouldStop` that finds it set. -/
theorem get_testShouldStop_of_stops (stops : relay.shouldStop = true) (loop : ℕ) :
    (relay.testShouldStop loop).loops.get loop = none := by
  rw [get_testShouldStop, if_pos rfl, if_pos stops]

/-- A call of the loop that is being stopped does not come to another batch. -/
theorem stageRank_afterBatch (stops : relay.shouldStop = true) (loop processedCount : ℕ) :
    stageRank ((relay.afterBatch loop processedCount).loops.get loop) < 2 := by
  unfold afterBatch
  dsimp only
  split
  · simp [stageRank]
  · rw [get_testShouldStop, if_pos rfl, if_pos stops]
    exact Nat.zero_lt_two

/-- **Each step of the relay brings it closer to the end of `stop`.** -/
theorem stopRank_lt_of_follow {outbox : List (OutboxRow K)} {action : RelayAction}
    (stops : relay.shouldStop = true)
    (followed : relay.follow batches.processedCount action = some relay')
    (taken : batches.BatchStep outbox action batches') :
    relay'.stopRank (stageOf action).1 batches' < relay.stopRank (stageOf action).1 batches := by
  obtain ⟨live, same⟩ := Option.ite_none_right_eq_some.mp followed
  cases same
  cases taken with
  | fetches idle fetch =>
      refine stopRank_lt_of_stage ?_
      rw [live]
      exact (congrArg stageRank (OrderedMap.get_set_self _ _ _)).trans_lt (Nat.lt_succ_self 2)
  | advances stage stays found replaced less rows removed =>
      refine Prod.Lex.toLex_lt_toLex.mpr (.inr ⟨?_, ?_⟩)
      · rw [stays]
      · simp only [batchRank, stage, replaced, OrderedMap.get_set_self, found]
        exact less
  | commits found deleted removed =>
      refine stopRank_lt_of_stage ?_
      rw [live]
      exact stageRank_afterBatch stops _ _
  | fails found deleted removed =>
      refine stopRank_lt_of_stage ?_
      rw [live]
      exact (congrArg stageRank (get_catchError_self _ _)).trans_lt (Nat.lt_succ_self 1)

end EventOutboxRelay

/-- A step of a loop of the relay, or of `stop`. -/
def ApiServerAction.IsOfRelay : ApiServerAction K → Prop
  | .relayStopped => True
  | .transactionFails _ => True
  | .sleepEnds _ => True
  | .deployment (.site (.relay _)) => True
  | _ => False

/-- The site stays consistent in a run of the deployment. -/
theorem Deployment.consistent_of_reaches {codec : JsonCodec K}
    {guard : Deployment P → DeploymentAction K → Prop} {deployment deployment' : Deployment P}
    (consistent : deployment.site.Consistent)
    (run : Reaches (Deployment.next codec) guard deployment deployment') :
    deployment'.site.Consistent := by
  induction run with
  | start => exact consistent
  | step _ _ taken ih =>
      obtain same | ⟨siteAction, -, stepped⟩ := site_of_next taken
      · rw [same]
        exact ih
      · exact (ih.step stepped).1

namespace ApiServer

variable {codec : JsonCodec K} {server server' : ApiServer P}

/-! ## Servers in a run -/

/-- What holds of a server and of its database and relay. -/
structure Running (server : ApiServer P) : Prop where
  sound : server.Sound
  consistent : server.deployment.site.Consistent

namespace Running

theorem start {db : Db P} (reachable : WorkerReachable db) (clock : Timestamp) (isUp : Bool) :
    (ApiServer.start db clock isUp).Running :=
  ⟨.start db clock isUp, reachable, .empty⟩

theorem step (running : server.Running) {action : ApiServerAction K}
    (taken : server.next codec action = some server') : server'.Running := by
  exact ⟨running.sound.step taken,
    Deployment.consistent_of_reaches running.consistent (deployment_of_next running.sound taken)⟩

theorem of_reaches {guard : ApiServer P → ApiServerAction K → Prop} (running : server.Running)
    (reached : Reaches (next codec) guard server server') : server'.Running :=
  reached.invariant running fun _ _ _ running _ taken => running.step taken

/-- A step of the relay is one of its batch. -/
theorem batchStep (running : server.Running) {relayAction : RelayAction}
    (taken : server.relay.Step server.deployment.site.db.eventOutbox
      server.deployment.site.db.systemPowerplayPowers.rows relayAction server'.relay) :
    server.relay.BatchStep server.deployment.site.db.eventOutbox relayAction server'.relay :=
  Relay.batchStep_of_step running.consistent.relay taken

end Running

/-! ## While `stop` is pending -/

/-- `stop` awaits a promise. -/
def Stops (promise : Option ℕ) (server : ApiServer P) : Prop :=
  server.Running ∧ server.stopAwaits = some promise

/-- `stop` has returned. -/
def Stopped (server : ApiServer P) : Prop :=
  server.Running ∧ server.stopAwaits = none ∧ server.eventOutboxRelay.isRunning = false

/-- How far the call that is awaited is from its return. -/
def promiseRank (promise : Option ℕ) (server : ApiServer P) : ℕ ×ₗ ℕ ×ₗ ℕ ×ₗ ℕ :=
  (promise.map fun loop => server.eventOutboxRelay.stopRank loop server.relay).getD
    (toLex (0, toLex (0, toLex (0, 0))))

namespace Stops

variable {promise : Option ℕ}

theorem live (stops : server.Stops promise) {loop : ℕ} {stage : LoopStage}
    (live : server.eventOutboxRelay.loops.get loop = some stage) : promise = some loop :=
  (stops.1.sound.loop.stops promise stops.2).2.2.trans (stops.1.sound.loop.alone loop stage live).2

/-- **A step leaves `stop` where it is, brings it closer to its end or ends it.** -/
theorem step (stops : server.Stops promise) {action : ApiServerAction K}
    (taken : server.next codec action = some server') : server'.Stopped ∨
      (server'.Stops promise ∧ server'.promiseRank promise ≤ server.promiseRank promise ∧
        (action.IsOfRelay → server'.promiseRank promise < server.promiseRank promise)) := by
  have later := stops.1.step taken
  obtain ⟨runs, shouldStop, -⟩ := stops.1.sound.loop.stops promise stops.2
  cases action with
  | redisReady =>
      cases taken
      refine .inr ⟨⟨later, stops.2⟩, le_of_eq ?_, False.elim⟩
      rw [EventOutboxRelay.start, if_pos runs]
  | shutdown =>
      have again : server.isShuttingDown = true := by
        by_contra notYet
        have idle := stops.1.sound.shuts (Bool.eq_false_iff.mpr notYet)
        exact absurd (stops.2.symm.trans idle) (Option.some_ne_none _)
      obtain rfl : server = server' := by
        unfold next at taken
        dsimp only at taken
        rw [if_pos again] at taken
        exact Option.some_inj.mp taken
      exact .inr ⟨stops, le_rfl, False.elim⟩
  | relayStopped =>
      obtain ⟨awaited, -, moved⟩ := Option.bind_eq_some_iff.mp taken
      obtain ⟨-, same⟩ := Option.ite_none_right_eq_some.mp moved
      cases same
      exact .inl ⟨later, rfl, rfl⟩
  | transactionFails loop =>
      obtain ⟨relay, failed, rfl⟩ := Option.map_eq_some_iff.mp taken
      obtain ⟨live, same⟩ := Option.ite_none_right_eq_some.mp failed
      cases same
      obtain rfl := stops.live live
      have less : (server.eventOutboxRelay.catchError loop).stopRank loop server.relay <
          server.eventOutboxRelay.stopRank loop server.relay := by
        refine EventOutboxRelay.stopRank_lt_of_stage ?_
        rw [live, EventOutboxRelay.get_catchError_self]
        decide
      exact .inr ⟨⟨later, stops.2⟩, less.le, fun _ => less⟩
  | sleepEnds loop =>
      obtain ⟨relay, woken, rfl⟩ := Option.map_eq_some_iff.mp taken
      obtain ⟨live, same⟩ := Option.ite_none_right_eq_some.mp woken
      cases same
      obtain rfl := stops.live live
      have less : (server.eventOutboxRelay.testShouldStop loop).stopRank loop server.relay <
          server.eventOutboxRelay.stopRank loop server.relay := by
        refine EventOutboxRelay.stopRank_lt_of_stage ?_
        rw [live, EventOutboxRelay.get_testShouldStop_of_stops shouldStop]
        decide
      exact .inr ⟨⟨later, stops.2⟩, less.le, fun _ => less⟩
  | deployment action =>
      obtain ⟨-, -, awaits, ⟨sameLoop, sameRelay, other⟩ | ⟨relayAction, rfl, followed, stepped⟩⟩ :=
        deployment_cases taken
      · have same : server'.promiseRank promise = server.promiseRank promise := by
          rw [promiseRank, promiseRank, sameLoop, sameRelay]
        refine .inr ⟨⟨later, awaits.trans stops.2⟩, same.le, fun ofRelay => ?_⟩
        cases action with
        | site action =>
            cases action with
            | relay relayAction => exact absurd rfl (other relayAction)
            | tick clock => exact ofRelay.elim
            | begin transaction message => exact ofRelay.elim
            | commit transaction env => exact ofRelay.elim
            | rollback transaction => exact ofRelay.elim
        | deliver => exact ofRelay.elim
        | broker action => exact ofRelay.elim
      · obtain ⟨live, -⟩ := Option.ite_none_right_eq_some.mp followed
        obtain rfl := stops.live live
        have less :=
          EventOutboxRelay.stopRank_lt_of_follow shouldStop followed (stops.1.batchStep stepped)
        exact .inr ⟨⟨later, awaits.trans stops.2⟩, less.le, fun _ => less⟩

/-- Some step of the relay is possible. -/
theorem possible (stops : server.Stops promise) :
    ∃ action : ApiServerAction K, action.IsOfRelay ∧ (server.next codec action).isSome := by
  by_cases settled : server.eventOutboxRelay.IsSettled promise
  · refine ⟨.relayStopped, trivial, ?_⟩
    simp [next, stops.2, settled]
  · obtain ⟨loop, isNamed, pending⟩ : ∃ loop, promise = some loop ∧
        server.eventOutboxRelay.loops.get loop ≠ none := by
      unfold EventOutboxRelay.IsSettled at settled
      push Not at settled
      exact settled
    obtain ⟨stage, live⟩ := Option.ne_none_iff_exists'.mp pending
    cases stage with
    | transaction =>
        refine ⟨.transactionFails loop, trivial, ?_⟩
        simp [next, EventOutboxRelay.failTransaction, live]
    | sleep =>
        refine ⟨.sleepEnds loop, trivial, ?_⟩
        simp [next, EventOutboxRelay.endSleep, live]
    | batch =>
        obtain ⟨batch, found⟩ := Option.isSome_iff_exists.mp ((stops.1.sound.holds loop).mpr live)
        refine ⟨.deployment (.site (.relay (.fail loop))), trivial, ?_⟩
        have inRelay : server.deployment.site.relay.batches.get loop = some batch := found
        simp [next, followed, EventOutboxRelay.follow, EventOutboxRelay.stageOf, live,
          Deployment.next, Site.next, Relay.next, inRelay]

end Stops

/-! ## After `stop` -/

/-- **A relay that is stopped does nothing** until Redis is ready. -/
theorem Stopped.step (stopped : server.Stopped) {action : ApiServerAction K}
    (quiet : action ≠ .redisReady) (taken : server.next codec action = some server') :
    server'.Stopped ∧ server'.relay = server.relay := by
  have later := stopped.1.step taken
  have none_ : ∀ loop stage, server.eventOutboxRelay.loops.get loop ≠ some stage :=
    fun loop stage live => by
      have runs := (stopped.1.sound.loop.alone loop stage live).1
      rw [stopped.2.2] at runs
      cases runs
  cases action with
  | redisReady => exact absurd rfl quiet
  | shutdown =>
      unfold next at taken
      dsimp only at taken
      split at taken
      · cases taken
        exact ⟨stopped, rfl⟩
      · cases taken
        have idle : ¬ server.eventOutboxRelay.isRunning = true := by
          rw [stopped.2.2]
          exact Bool.false_ne_true
        refine ⟨⟨later, ?_, ?_⟩, rfl⟩
        · dsimp only
          rw [EventOutboxRelay.stop, if_neg idle]
        · dsimp only
          rw [EventOutboxRelay.stop, if_neg idle]
          exact stopped.2.2
  | relayStopped =>
      obtain ⟨promise, pending, -⟩ := Option.bind_eq_some_iff.mp taken
      exact absurd (pending.symm.trans stopped.2.1) (Option.some_ne_none _)
  | transactionFails loop =>
      obtain ⟨relay, failed, -⟩ := Option.map_eq_some_iff.mp taken
      exact absurd (Option.ite_none_right_eq_some.mp failed).1 (none_ _ _)
  | sleepEnds loop =>
      obtain ⟨relay, woken, -⟩ := Option.map_eq_some_iff.mp taken
      exact absurd (Option.ite_none_right_eq_some.mp woken).1 (none_ _ _)
  | deployment action =>
      obtain ⟨-, -, awaits, ⟨sameLoop, sameRelay, -⟩ | ⟨relayAction, -, followed, -⟩⟩ :=
        deployment_cases taken
      · exact ⟨⟨later, awaits.trans stopped.2.1, (congrArg _ sameLoop).trans stopped.2.2⟩,
          sameRelay⟩
      · exact absurd (Option.ite_none_right_eq_some.mp followed).1 (none_ _ _)

/-- **`stop` returns**, in every run in which the relay's steps are not put off for ever while it
is pending, whatever the worker, Redis and the clients do meanwhile. No batch is open then, and
nothing is published until Redis is ready again. -/
theorem relay_stop_returns {db : Db P} {clock : Timestamp} {isUp : Bool} {promise : Option ℕ}
    {n : ℕ} (reachable : WorkerReachable db) (run : InfiniteRun (next (P := P) codec))
    (begins : Reachable (next codec) (.start db clock isUp) (run.state 0))
    (fair : run.WeaklyFair fun server action =>
      action.IsOfRelay ∧ server.stopAwaits.isSome = true)
    (pending : (run.state n).stopAwaits = some promise) :
    ∃ m, n ≤ m ∧ (run.state m).stopAwaits = none ∧
      (run.state m).eventOutboxRelay.isRunning = false ∧
      (run.state m).relay.batches.keys = [] ∧
      ∀ k, m ≤ k → (∀ j, m ≤ j → j < k → run.action j ≠ .redisReady) →
        (run.state k).relay = (run.state m).relay := by
  have running : ∀ m, (run.state m).Running := fun m =>
    ((Running.start reachable clock isUp).of_reaches begins).of_reaches
      (run.reaches (Nat.zero_le m) fun _ _ _ => trivial : Reachable _ _ _)
  have possible : ∀ m, n ≤ m → (run.state m).Stops promise → ∃ action : ApiServerAction K,
      (action.IsOfRelay ∧ (run.state m).stopAwaits.isSome = true) ∧
        ((run.state m).next codec action).isSome := by
    intro m _ stops
    obtain ⟨action, ofRelay, taken⟩ := stops.possible
    exact ⟨action, ⟨ofRelay, by rw [stops.2]; rfl⟩, taken⟩
  obtain ⟨m, after, stopped⟩ := fair.eventually_of_rank (promiseRank promise) (Stops promise) Stopped
    possible (fun m _ stops => (stops.step (run.taken m)).imp_right fun still =>
      ⟨still.1, still.2.1, fun helps => still.2.2 helps.1⟩) ⟨running n, pending⟩
  refine ⟨m, after, stopped.2.1, stopped.2.2, (running m).sound.idle stopped.2.2,
    fun k later quiet => ?_⟩
  exact (run.always (p := fun server => server.Stopped ∧ server.relay = (run.state m).relay) later
    ⟨stopped, rfl⟩ fun j before earlier kept => by
      obtain ⟨still, same⟩ := kept.1.step (quiet j before earlier) (run.taken j)
      exact ⟨still, same.trans kept.2⟩).2

end ApiServer

/-! ## Samples -/

/-- The relay finishes its batch, and `stop` returns. -/
def sampleStop : List (ApiServerAction ℚ) :=
  (handleNextRow.map fun action => .deployment (.site action)) ++
    [.deployment (.site (.relay (.commit 0))), .relayStopped]

/-- A signal comes while a batch is open. -/
theorem relay_stop_returns_sample :
    ∃ (run : InfiniteRun (ApiServer.next (P := asciiPlatform) rationalJsonCodec)) (m : ℕ),
      (run.state 0).stopAwaits = some (some 0) ∧ (run.state 0).relay.batches.keys = [0] ∧
        (run.state m).stopAwaits = none ∧ (run.state m).relay.batches.keys = [] := by
  obtain ⟨server, reached, observed⟩ := exists_reachable_of_execute
    (ApiServer.next rationalJsonCodec) (ApiServer.start (Db.empty : Db asciiPlatform) 1 true)
    (sampleServing ++ [.shutdown])
    (fun server : ApiServer asciiPlatform => decide (server.stopAwaits = some (some 0) ∧
        server.relay.batches.keys = [0]) &&
      (execute (ApiServer.next rationalJsonCodec) server sampleStop).any
        fun stopped : ApiServer asciiPlatform =>
        decide (stopped.stopAwaits = none))
    (by decide +kernel)
  obtain ⟨begins, observed⟩ := Bool.and_eq_true_iff.mp observed
  obtain ⟨pending, fetched⟩ := of_decide_eq_true begins
  obtain ⟨stopped, ran, ends⟩ := (Option.any_eq_true _ _).mp observed
  obtain ⟨run, same, -, stays⟩ :=
    InfiniteRun.exists_of_execute ran (ApiServer.next_tick rationalJsonCodec stopped)
  rw [← same] at reached pending fetched
  obtain ⟨m, -, returned, -, closed, -⟩ := ApiServer.relay_stop_returns .start run reached
    (fun n possible => by
      obtain ⟨action, ⟨-, waits⟩, -⟩ := possible (n + sampleStop.length) (Nat.le_add_right _ _)
      rw [stays _ (Nat.le_add_left _ _), of_decide_eq_true ends] at waits
      cases waits)
    pending
  exact ⟨run, m, pending, fetched, returned, closed⟩

end EliteHubVault
