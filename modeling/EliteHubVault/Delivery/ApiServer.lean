import EliteHubVault.Delivery.Mirrors
import EliteHubVault.Relay.Loop

/-!
# The API server around the relay

The server starts the relay each time Redis becomes ready, and stops it once, on the first signal
to shut down. Everything else goes on meanwhile: the transactions of the worker, the messages
from Redis and the connections of the clients.

`ApiServer.next` lets a loop of the relay take a step only where its code has come to. In every run
the loops of the deployment then take turns (`relay_takes_turns`).
-/

set_option autoImplicit false
set_option linter.unusedSectionVars false

namespace EliteHubVault

open Library

variable {K : Type} [Field K] [LinearOrder K] {P : Platform K}

/-! ## State and steps -/

/-- The deployment, the relay's loop and a shutdown. `stopAwaits` is the promise that a call of
`eventOutboxRelay.stop` waits for. -/
structure ApiServer (P : Platform K) where
  deployment : Deployment P
  eventOutboxRelay : EventOutboxRelay
  isShuttingDown : Bool
  stopAwaits : Option (Option ℕ)

/-- Redis becomes ready, a signal to shut down, the rest of `stop`, a step of a loop outside its
batch, or any step of the deployment. -/
inductive ApiServerAction (K : Type) where
  | redisReady
  | shutdown
  | relayStopped
  | transactionFails (loop : ℕ)
  | sleepEnds (loop : ℕ)
  | deployment (action : DeploymentAction K)

namespace ApiServer

def start (db : Db P) (clock : Timestamp) (isUp : Bool) : ApiServer P where
  deployment := .start db clock isUp
  eventOutboxRelay := .initial
  isShuttingDown := false
  stopAwaits := none

/-- The relay's loop after a step of the deployment. -/
def followed (server : ApiServer P) : DeploymentAction K → Option EventOutboxRelay
  | .site (.relay action) =>
      server.eventOutboxRelay.follow server.deployment.site.relay.processedCount action
  | _ => some server.eventOutboxRelay

def next (codec : JsonCodec K) (server : ApiServer P) : ApiServerAction K → Option (ApiServer P)
  | .redisReady => some { server with eventOutboxRelay := server.eventOutboxRelay.start }
  | .shutdown =>
      if server.isShuttingDown then some server
      else some { server with
        eventOutboxRelay := server.eventOutboxRelay.stop.1
        isShuttingDown := true
        stopAwaits := server.eventOutboxRelay.stop.2 }
  | .relayStopped =>
      server.stopAwaits.bind fun promise =>
        if server.eventOutboxRelay.IsSettled promise then
          some { server with
            eventOutboxRelay := server.eventOutboxRelay.afterStop
            stopAwaits := none }
        else none
  | .transactionFails loop =>
      (server.eventOutboxRelay.failTransaction loop).map fun eventOutboxRelay =>
        { server with eventOutboxRelay }
  | .sleepEnds loop =>
      (server.eventOutboxRelay.endSleep loop).map fun eventOutboxRelay =>
        { server with eventOutboxRelay }
  | .deployment action =>
      (server.followed action).bind fun eventOutboxRelay =>
        (server.deployment.next codec action).map fun deployment =>
          { server with deployment, eventOutboxRelay }

variable {codec : JsonCodec K} {server server' : ApiServer P}

/-- The relay, as its loop moves it. -/
def relay (server : ApiServer P) : Relay K := server.deployment.site.relay

/-- **What a step of the deployment does**: it is a step of the relay that its loop follows, or it
touches neither the relay nor its loop. -/
theorem deployment_cases {action : DeploymentAction K}
    (taken : server.next codec (.deployment action) = some server') :
    server.deployment.next codec action = some server'.deployment ∧
      server'.isShuttingDown = server.isShuttingDown ∧
      server'.stopAwaits = server.stopAwaits ∧
      ((server'.eventOutboxRelay = server.eventOutboxRelay ∧ server'.relay = server.relay ∧
          ∀ relayAction, action ≠ .site (.relay relayAction)) ∨
        ∃ relayAction, action = .site (.relay relayAction) ∧
          server.eventOutboxRelay.follow server.relay.processedCount relayAction =
            some server'.eventOutboxRelay ∧
          server.relay.Step server.deployment.site.db.eventOutbox
            server.deployment.site.db.systemPowerplayPowers.rows relayAction server'.relay) := by
  obtain ⟨eventOutboxRelay, followed, moved⟩ := Option.bind_eq_some_iff.mp taken
  obtain ⟨deployment, stepped, rfl⟩ := Option.map_eq_some_iff.mp moved
  refine ⟨stepped, rfl, rfl, ?_⟩
  by_cases isRelay : ∃ relayAction, action = .site (.relay relayAction)
  · obtain ⟨relayAction, rfl⟩ := isRelay
    refine .inr ⟨relayAction, rfl, followed, ?_⟩
    obtain ⟨site, siteStep, rfl⟩ := Option.map_eq_some_iff.mp stepped
    obtain ⟨relay, relayStep, rfl⟩ := Option.map_eq_some_iff.mp siteStep
    exact Relay.step_of_next relayStep
  · have other : ∀ relayAction, action ≠ .site (.relay relayAction) :=
      fun relayAction same => isRelay ⟨relayAction, same⟩
    have same : server.followed action = some server.eventOutboxRelay := by
      unfold ApiServer.followed
      split
      · exact absurd rfl (other _)
      · rfl
    refine .inl ⟨(Option.some_inj.mp (followed.symm.trans same)), ?_, other⟩
    obtain sameSite | ⟨siteAction, rfl, siteStep⟩ := Deployment.site_of_next stepped
    · exact congrArg Site.relay sameSite
    · obtain sameRelay | ⟨relayAction, rfl, -⟩ := Site.relay_of_next siteStep
      · exact sameRelay
      · exact absurd rfl (other relayAction)

/-- The clock may stand still. -/
theorem next_tick (codec : JsonCodec K) (server : ApiServer P) : server.next codec
    (.deployment (.site (.tick server.deployment.site.clock))) = some server := by
  simp [next, followed, Deployment.next, Site.next]

/-! ## The invariant -/

/-- **What holds of a server**: its loop is sound, exactly the loops that are in a batch have one,
and `stop` is pending only in a shutdown. -/
structure Sound (server : ApiServer P) : Prop where
  loop : server.eventOutboxRelay.Sound server.stopAwaits
  holds : server.eventOutboxRelay.Holds server.relay
  shuts : server.isShuttingDown = false → server.stopAwaits = none

namespace Sound

theorem start (db : Db P) (clock : Timestamp) (isUp : Bool) :
    (ApiServer.start db clock isUp).Sound where
  loop := .initial
  holds loop := by
    constructor
    · intro found
      cases found
    · intro live
      cases live
  shuts _ := rfl

/-- A loop without a batch changes its stage. -/
theorem of_loop (sound : server.Sound) (loop : ℕ) {eventOutboxRelay : EventOutboxRelay}
    (later : eventOutboxRelay.Sound server.stopAwaits)
    (live : server.eventOutboxRelay.loops.get loop ≠ some .batch)
    (others : ∀ other, other ≠ loop →
      eventOutboxRelay.loops.get other = server.eventOutboxRelay.loops.get other)
    (still : eventOutboxRelay.loops.get loop ≠ some .batch) :
    Sound { server with eventOutboxRelay } :=
  ⟨later, sound.holds.of_other live others still, sound.shuts⟩

theorem redisReady (sound : server.Sound) :
    Sound { server with eventOutboxRelay := server.eventOutboxRelay.start } := by
  unfold EventOutboxRelay.start
  split
  · exact sound
  · rename_i idle
    have later := sound.loop.start
    rw [EventOutboxRelay.start, if_neg idle] at later
    refine sound.of_loop server.eventOutboxRelay.calls later ?_ ?_ ?_
    · intro live
      exact idle (sound.loop.alone _ _ live).1
    · intro other apart
      rw [EventOutboxRelay.get_testShouldStop, if_neg apart]
    · exact EventOutboxRelay.get_testShouldStop_self _ _

theorem shutdown (sound : server.Sound) (running : server.isShuttingDown = false) :
    Sound { server with
      eventOutboxRelay := server.eventOutboxRelay.stop.1
      isShuttingDown := true
      stopAwaits := server.eventOutboxRelay.stop.2 } where
  loop := by
    have loop := sound.loop
    rw [sound.shuts running] at loop
    exact loop.stop
  holds := by
    have same : server.eventOutboxRelay.stop.1.loops = server.eventOutboxRelay.loops := by
      unfold EventOutboxRelay.stop
      split <;> rfl
    intro loop
    dsimp only
    rw [same]
    exact sound.holds loop
  shuts impossible := absurd impossible.symm Bool.false_ne_true

theorem relayStopped {promise : Option ℕ} (sound : server.Sound)
    (pending : server.stopAwaits = some promise)
    (settled : server.eventOutboxRelay.IsSettled promise) :
    Sound { server with
      eventOutboxRelay := server.eventOutboxRelay.afterStop
      stopAwaits := none } where
  loop := by
    have loop := sound.loop
    rw [pending] at loop
    exact loop.afterStop settled
  holds := sound.holds
  shuts _ := rfl

theorem transactionFails {loop : ℕ} {eventOutboxRelay : EventOutboxRelay} (sound : server.Sound)
    (taken : server.eventOutboxRelay.failTransaction loop = some eventOutboxRelay) :
    Sound { server with eventOutboxRelay } := by
  have later := sound.loop.failTransaction taken
  obtain ⟨live, same⟩ := Option.ite_none_right_eq_some.mp taken
  cases same
  refine sound.of_loop loop later (by rw [live]; decide)
    (fun _ apart => EventOutboxRelay.get_catchError_of_ne apart) ?_
  rw [EventOutboxRelay.get_catchError_self]
  decide

theorem sleepEnds {loop : ℕ} {eventOutboxRelay : EventOutboxRelay} (sound : server.Sound)
    (taken : server.eventOutboxRelay.endSleep loop = some eventOutboxRelay) :
    Sound { server with eventOutboxRelay } := by
  have later := sound.loop.endSleep taken
  obtain ⟨live, same⟩ := Option.ite_none_right_eq_some.mp taken
  cases same
  refine sound.of_loop loop later (by rw [live]; decide) (fun other apart => ?_)
    (EventOutboxRelay.get_testShouldStop_self _ _)
  rw [EventOutboxRelay.get_testShouldStop, if_neg apart]

theorem deployment (sound : server.Sound) {action : DeploymentAction K}
    (taken : server.next codec (.deployment action) = some server') : server'.Sound := by
  obtain ⟨-, shuts, awaits, ⟨sameLoop, sameRelay, -⟩ | ⟨relayAction, -, followed, stepped⟩⟩ :=
    deployment_cases taken
  · refine ⟨?_, ?_, ?_⟩
    · rw [sameLoop, awaits]
      exact sound.loop
    · rw [sameLoop, sameRelay]
      exact sound.holds
    · rw [shuts, awaits]
      exact sound.shuts
  · refine ⟨?_, sound.holds.follow stepped followed, ?_⟩
    · rw [awaits]
      exact sound.loop.follow followed
    · rw [shuts, awaits]
      exact sound.shuts

/-- **Every step keeps it.** -/
theorem step (sound : server.Sound) {action : ApiServerAction K}
    (taken : server.next codec action = some server') : server'.Sound := by
  cases action with
  | redisReady =>
      cases taken
      exact sound.redisReady
  | shutdown =>
      unfold ApiServer.next at taken
      dsimp only at taken
      split at taken
      · cases taken
        exact sound
      · rename_i running
        cases taken
        exact sound.shutdown (Bool.eq_false_iff.mpr running)
  | relayStopped =>
      obtain ⟨promise, pending, taken⟩ := Option.bind_eq_some_iff.mp taken
      obtain ⟨settled, same⟩ := Option.ite_none_right_eq_some.mp taken
      cases same
      exact sound.relayStopped pending settled
  | transactionFails loop =>
      obtain ⟨eventOutboxRelay, failed, rfl⟩ := Option.map_eq_some_iff.mp taken
      exact sound.transactionFails failed
  | sleepEnds loop =>
      obtain ⟨eventOutboxRelay, woken, rfl⟩ := Option.map_eq_some_iff.mp taken
      exact sound.sleepEnds woken
  | deployment action => exact sound.deployment taken

/-- The only open batch is the one of the loop that is named. -/
theorem batch_unique (sound : server.Sound) {loop other : ℕ} {batch otherBatch : Batch K}
    (found : server.relay.batches.get loop = some batch)
    (foundOther : server.relay.batches.get other = some otherBatch) : other = loop := by
  have live := (sound.holds loop).mp (by rw [found]; rfl)
  have liveOther := (sound.holds other).mp (by rw [foundOther]; rfl)
  exact sound.loop.loop_unique live liveOther

/-- A relay that does not run has no batch. -/
theorem idle (sound : server.Sound) (stopped : server.eventOutboxRelay.isRunning = false) :
    server.relay.batches.keys = [] := by
  refine List.eq_nil_iff_forall_not_mem.mpr fun loop member => ?_
  have live := (sound.holds loop).mp (OrderedMap.get_isSome_iff.mpr member)
  rw [(sound.loop.alone loop .batch live).1] at stopped
  cases stopped

/-- **A loop fetches a batch when no other loop has one.** -/
theorem takesTurns (sound : server.Sound) {action : DeploymentAction K}
    (taken : server.next codec (.deployment action) = some server') :
    server.deployment.TakesTurns action := by
  obtain ⟨-, -, -, ⟨-, -, other⟩ | ⟨relayAction, rfl, followed, stepped⟩⟩ := deployment_cases taken
  · cases action with
    | site action =>
        cases action with
        | relay relayAction => exact absurd rfl (other relayAction)
        | tick clock => exact trivial
        | begin transaction message => exact trivial
        | commit transaction env => exact trivial
        | rollback transaction => exact trivial
    | deliver => exact trivial
    | broker action => exact trivial
  · cases relayAction with
    | fetchBatch loop rows =>
        obtain ⟨live, -⟩ := Option.ite_none_right_eq_some.mp followed
        refine List.eq_nil_iff_forall_not_mem.mpr fun other member => ?_
        have inBatch := (sound.holds other).mp (OrderedMap.get_isSome_iff.mpr member)
        obtain rfl := sound.loop.loop_unique live inBatch
        cases inBatch.symm.trans live
    | prepareRow loop => exact trivial
    | publish loop => exact trivial
    | deleteOutboxRow loop => exact trivial
    | commit loop => exact trivial
    | fail loop => exact trivial

end Sound

/-! ## Runs -/

theorem sound_of_reaches {guard : ApiServer P → ApiServerAction K → Prop}
    (sound : server.Sound) (reached : Reaches (next codec) guard server server') : server'.Sound :=
  reached.invariant sound fun _ _ _ sound _ taken => sound.step taken

/-- A step of the server is a step of its deployment, or none. -/
theorem reaches_of_next {guard : Deployment P → DeploymentAction K → Prop}
    {action : ApiServerAction K}
    (admitted : ∀ deploymentAction, action = .deployment deploymentAction →
      guard server.deployment deploymentAction)
    (taken : server.next codec action = some server') :
    Reaches (Deployment.next codec) guard server.deployment server'.deployment := by
  cases action with
  | redisReady =>
      cases taken
      exact .start
  | shutdown =>
      unfold next at taken
      dsimp only at taken
      split at taken
      · cases taken
        exact .start
      · cases taken
        exact .start
  | relayStopped =>
      obtain ⟨promise, pending, taken⟩ := Option.bind_eq_some_iff.mp taken
      obtain ⟨settled, same⟩ := Option.ite_none_right_eq_some.mp taken
      cases same
      exact .start
  | transactionFails loop =>
      obtain ⟨eventOutboxRelay, failed, rfl⟩ := Option.map_eq_some_iff.mp taken
      exact .start
  | sleepEnds loop =>
      obtain ⟨eventOutboxRelay, woken, rfl⟩ := Option.map_eq_some_iff.mp taken
      exact .start
  | deployment action =>
      exact Reaches.start.step (admitted action rfl) (deployment_cases taken).1

/-- It is one in which loops take turns. -/
theorem deployment_of_next (sound : server.Sound) {action : ApiServerAction K}
    (taken : server.next codec action = some server') :
    Reaches (Deployment.next codec) Deployment.TakesTurns server.deployment server'.deployment :=
  reaches_of_next (fun _ isDeployment => sound.takesTurns (isDeployment ▸ taken)) taken

theorem takesTurns_of_reaches {guard : ApiServer P → ApiServerAction K → Prop}
    (sound : server.Sound) (reached : Reaches (next codec) guard server server') :
    Reaches (Deployment.next codec) Deployment.TakesTurns server.deployment
      server'.deployment := by
  induction reached with
  | start => exact .start
  | step before _ taken ih =>
      exact ih.trans (deployment_of_next (sound_of_reaches sound before) taken)

/-- **The relay takes turns.** However often Redis becomes ready and whenever a shutdown comes,
every run of the server is a run of its deployment in which a loop fetches a batch only when no
loop has one. So there is one batch at most, and none when the relay does not run; and a relay
that runs and is not being stopped has a loop. -/
theorem relay_takes_turns {db : Db P} {clock : Timestamp} {isUp : Bool}
    (reached : Reachable (next codec) (.start db clock isUp) server) :
    Reaches (Deployment.next codec) Deployment.TakesTurns (.start db clock isUp)
        server.deployment ∧
      (∀ loop other batch otherBatch, server.relay.batches.get loop = some batch →
        server.relay.batches.get other = some otherBatch → other = loop) ∧
      (server.eventOutboxRelay.isRunning = false → server.relay.batches.keys = []) ∧
      (server.eventOutboxRelay.isRunning = true → server.stopAwaits = none →
        ∃ loop stage, server.eventOutboxRelay.loops.get loop = some stage) := by
  have sound := sound_of_reaches (.start db clock isUp) reached
  exact ⟨takesTurns_of_reaches (.start db clock isUp) reached,
    fun _ _ _ _ found foundOther => sound.batch_unique found foundOther, sound.idle,
    fun running goesOn => (sound.loop.runs running goesOn).2⟩

end ApiServer

/-! ## Samples -/

/-- Redis becomes ready twice, the first transaction of the relay fails, and the next one fetches
the row of the worker. -/
def sampleServing : List (ApiServerAction ℚ) :=
  [.redisReady,
    .deployment (.site (.begin 0 (.fsdJump (sampleMessage (some "A") [sampleFaction "A" (1 / 2)])))),
    .deployment (.site (.commit 0 (sampleEnv 1))), .redisReady, .transactionFails 0, .sleepEnds 0,
    .deployment (.site (.relay (.fetchBatch 0 [0])))]

/-- There is one batch. -/
theorem relay_takes_turns_sample : ∃ server : ApiServer asciiPlatform,
    server.relay.batches.keys = [0] ∧
      Reaches (Deployment.next rationalJsonCodec) Deployment.TakesTurns (.start Db.empty 1 true)
        server.deployment ∧
      ∃ loop stage, server.eventOutboxRelay.loops.get loop = some stage := by
  obtain ⟨server, reached, observed⟩ := exists_reachable_of_execute
    (ApiServer.next rationalJsonCodec) (ApiServer.start (Db.empty : Db asciiPlatform) 1 true)
    sampleServing
    (fun server : ApiServer asciiPlatform => decide (server.relay.batches.keys = [0] ∧
      server.eventOutboxRelay.isRunning = true ∧ server.stopAwaits = none))
    (by decide +kernel)
  obtain ⟨fetched, running, goesOn⟩ := of_decide_eq_true observed
  obtain ⟨turns, -, -, live⟩ := ApiServer.relay_takes_turns reached
  exact ⟨server, fetched, turns, live running goesOn⟩

end EliteHubVault
