import EliteHubVault.Platform.JsonText
import EliteHubVault.Sse.Disposal
import EliteHubVault.Sse.SseService

/-!
# A gone client gives its quota back

A call keeps its invariant over any growth of the broker: the quota is released at most once,
and when the listeners are attached before 'close' has fired, the event releases the quota and
has the broker close the connection. When 'close' comes before the listeners it reaches nobody.
-/

set_option autoImplicit false

namespace EliteHubVault

open Library

/-! ## What a call keeps -/

namespace ServiceConnection

variable {connection connection' : ServiceConnection} {broker broker' : SseBroker}

/-- The broker has closed the connection. -/
def Gone (connection : ServiceConnection) (broker : SseBroker) : Prop :=
  ∀ connectionId ∈ connection.registered, broker.Closed connectionId

/-- **The invariant of a call.** The listeners are attached only after the call has returned,
and before 'close' has fired; without them the quota is released when the call returns. -/
structure Kept (connection : ServiceConnection) (broker : SseBroker) : Prop where
  counted : connection.releases = if connection.quotaReleased then 1 else 0
  stopped : connection.quotaReleased = true → connection.heartbeat = false
  known : ∀ connectionId ∈ connection.registered,
    (broker.connections.get connectionId).isSome
  unopened : connection.phase = .awaitsLease →
    connection.quotaReleased = false ∧ connection.refreshing = 0 ∧ connection.heartbeat = false
  attached : connection.listening = true → connection.phase = .returned ∧
    ((connection.connectionId = connection.registered ∧ connection.closeFired = false) ∨
      (connection.connectionId = none ∧ connection.quotaReleased = true ∧ connection.Gone broker))
  unattached : connection.phase = .returned → connection.listening = false →
    connection.quotaReleased = true ∧ connection.Gone broker

/-- The fields that `releaseQuota` does not touch. -/
theorem releaseQuota_eq (connection : ServiceConnection) : ∃ heartbeat releases,
    connection.releaseQuota = { connection with quotaReleased := true, heartbeat, releases } := by
  unfold releaseQuota
  split
  · rename_i released
    exact ⟨connection.heartbeat, connection.releases, by rw [← released]⟩
  · exact ⟨false, connection.releases + 1, rfl⟩

/-- The broker after a listener has called `cleanup`. -/
def cleanedBroker (reason : SseCloseReason) (connection : ServiceConnection) (broker : SseBroker) :
    SseBroker :=
  match connection.connectionId with
  | none => broker
  | some toCleanup => broker.cleanupConnection toCleanup reason .other

theorem cleanup_eq (reason : SseCloseReason) (connection : ServiceConnection)
    (broker : SseBroker) : connection.cleanup reason broker =
      ({ connection.releaseQuota with connectionId := none },
        cleanedBroker reason connection broker) := by
  obtain ⟨heartbeat, count, same⟩ := connection.releaseQuota_eq
  unfold cleanup cleanedBroker
  rw [same]
  cases connection.connectionId <;> rfl

theorem releaseQuota_closeFired (connection : ServiceConnection) (closeFired : Bool) :
    releaseQuota { connection with closeFired } = { connection.releaseQuota with closeFired } := by
  unfold releaseQuota
  by_cases released : connection.quotaReleased = true
  · simp [released]
  · simp [released]

/-- The second listener finds nothing to do. -/
theorem fireClose_eq (listening : connection.listening = true) :
    connection.fireClose broker =
      ({ connection.releaseQuota with connectionId := none, closeFired := true },
        cleanedBroker .clientDisconnect connection broker) := by
  obtain ⟨heartbeat, count, same⟩ := connection.releaseQuota_eq
  unfold fireClose
  rw [if_pos listening]
  simp only [cleanup_eq, releaseQuota_closeFired, same]
  rfl

theorem touches_cleanedBroker (reason : SseCloseReason) (connection : ServiceConnection)
    (broker : SseBroker) : broker.Touches (cleanedBroker reason connection broker) := by
  unfold cleanedBroker
  split
  · exact .refl
  · exact SseBroker.touches_cleanupConnection _ reason .other broker

theorem touches_endResponse (connection : ServiceConnection) (broker : SseBroker) :
    broker.Touches (connection.endResponse broker) := by
  unfold endResponse
  cases ended : connection.registered.bind fun connectionId => broker.endResponse connectionId with
  | none => exact .refl
  | some broker' =>
      obtain ⟨connectionId, -, ended⟩ := Option.bind_eq_some_iff.mp ended
      exact SseBroker.touches_endResponse ended

namespace Kept

theorem ofInput (input : RegisterConnectionInput) (broker : SseBroker) :
    (ServiceConnection.ofInput input).Kept broker where
  counted := rfl
  stopped := nofun
  known _ member := by cases member
  unopened _ := ⟨rfl, rfl, rfl⟩
  attached impossible := by cases impossible
  unattached impossible := by cases impossible

/-- Steps of others only let the broker grow. -/
theorem grow (kept : connection.Kept broker) (grows : SseBroker.Grows broker broker') :
    connection.Kept broker' where
  counted := kept.counted
  stopped := kept.stopped
  known connectionId member := grows.known connectionId (kept.known connectionId member)
  unopened := kept.unopened
  attached listening := by
    obtain ⟨returned, current | ⟨cleaned, released, gone⟩⟩ := kept.attached listening
    · exact ⟨returned, .inl current⟩
    · exact ⟨returned, .inr ⟨cleaned, released,
        fun connectionId member => grows.closed connectionId (gone connectionId member)⟩⟩
  unattached returned unheard := by
    obtain ⟨released, gone⟩ := kept.unattached returned unheard
    exact ⟨released, fun connectionId member => grows.closed connectionId (gone connectionId member)⟩

/-- The quota is released once and the heartbeat is cleared. -/
theorem releases (kept : connection.Kept broker) :
    connection.releaseQuota.releases = 1 ∧ connection.releaseQuota.heartbeat = false ∧
      connection.releaseQuota.quotaReleased = true := by
  unfold releaseQuota
  by_cases released : connection.quotaReleased = true
  · rw [if_pos released]
    exact ⟨by rw [kept.counted, if_pos released], kept.stopped released, released⟩
  · rw [if_neg released]
    refine ⟨?_, rfl, rfl⟩
    show connection.releases + 1 = 1
    rw [kept.counted, if_neg released]

theorem releaseQuota (kept : connection.Kept broker) (opened : connection.phase ≠ .awaitsLease) :
    connection.releaseQuota.Kept broker := by
  obtain ⟨releases, stopped, released⟩ := kept.releases
  obtain ⟨heartbeat, count, same⟩ := connection.releaseQuota_eq
  refine ⟨?_, fun _ => stopped, ?_, ?_, ?_, ?_⟩
  · rw [releases, if_pos released]
  · rw [same]
    exact kept.known
  · rw [same]
    exact fun unopened => absurd unopened opened
  · rw [same]
    intro listening
    obtain ⟨returned, current | ⟨cleaned, -, gone⟩⟩ := kept.attached listening
    · exact ⟨returned, .inl current⟩
    · exact ⟨returned, .inr ⟨cleaned, rfl, gone⟩⟩
  · rw [same]
    intro returned unheard
    exact ⟨rfl, (kept.unattached returned unheard).2⟩

/-- A listener releases the quota and has the broker close the connection. -/
theorem cleanup (kept : connection.Kept broker) (disposed : broker.Disposed)
    (listening : connection.listening = true) (reason : SseCloseReason) (closeFired : Bool) :
    Kept { connection.releaseQuota with connectionId := none, closeFired }
      (cleanedBroker reason connection broker) := by
  obtain ⟨releases, stopped, released⟩ := kept.releases
  obtain ⟨returned, current⟩ := kept.attached listening
  obtain ⟨heartbeat, count, same⟩ := connection.releaseQuota_eq
  have grows : SseBroker.Grows broker (cleanedBroker reason connection broker) :=
    .touches (touches_cleanedBroker reason connection broker)
  have gone : connection.Gone (cleanedBroker reason connection broker) := by
    intro connectionId member
    rcases current with ⟨current, -⟩ | ⟨-, -, gone⟩
    · refine SseBroker.closed_of_not_live (grows.known _ (kept.known connectionId member)) ?_
      unfold cleanedBroker
      rw [current, member]
      exact disposed.wired.not_live_cleanupConnection reason .other
    · exact grows.closed connectionId (gone connectionId member)
  refine ⟨?_, fun _ => stopped, ?_, ?_, ?_, ?_⟩
  · rw [show connection.releaseQuota.releases = 1 from releases]
    exact (if_pos released).symm
  · rw [same]
    exact fun connectionId member => grows.known connectionId (kept.known connectionId member)
  · rw [same]
    intro unopened
    rw [show connection.phase = .awaitsLease from unopened] at returned
    cases returned
  · rw [same]
    exact fun _ => ⟨returned, .inr ⟨rfl, rfl, gone⟩⟩
  · rw [same]
    intro _ unheard
    rw [show connection.listening = false from unheard] at listening
    cases listening

theorem decideLease (kept : connection.Kept broker)
    (unopened : connection.phase = .awaitsLease) (now : ℕ) (granted : Bool) :
    (connection.decideLease now granted broker).1.Kept
      (connection.decideLease now granted broker).2 := by
  have unheard : connection.listening = true → False := by
    intro listening
    have returned := (kept.attached listening).1
    rw [unopened] at returned
    cases returned
  obtain ⟨released, refreshing, -⟩ := kept.unopened unopened
  cases granted with
  | false =>
      exact ⟨kept.counted, kept.stopped, kept.known, nofun,
        fun listening => (unheard listening).elim, nofun⟩
  | true =>
      refine ⟨kept.counted, ?_, ?_, nofun, fun listening => (unheard listening).elim, nofun⟩
      · intro impossible
        rw [show connection.quotaReleased = true from impossible] at released
        cases released
      · intro connectionId member
        cases member
        show ((broker.registerConnection now connection.input).connections.get _).isSome = true
        rw [SseBroker.get_registerConnection, if_pos rfl]
        rfl

theorem resume (kept : connection.Kept broker) (disposed : broker.Disposed)
    (awaits : connection.phase = .awaitsRegistration)
    (inTime : ∀ connectionId ∈ connection.registered,
      (broker.registrations.get connectionId).any (· matches .returned) = true →
        connection.closeFired = false)
    (resumed : connection.resume broker = some (connection', broker')) :
    connection'.Kept broker' := by
  have unheard : connection.listening = false := by
    by_contra listening
    have returned := (kept.attached (Bool.eq_true_of_not_eq_false listening)).1
    rw [awaits] at returned
    cases returned
  obtain ⟨connectionId, registered, resumed⟩ := Option.bind_eq_some_iff.mp resumed
  split at resumed
  · rename_i returned
    cases resumed
    have early : connection.closeFired = false :=
      inTime connectionId registered (by rw [returned]; rfl)
    refine ⟨kept.counted, kept.stopped, kept.known, nofun, fun _ => ?_, fun _ => nofun⟩
    exact ⟨rfl, .inl ⟨registered.symm, early⟩⟩
  · rename_i thrown
    cases resumed
    have opened : connection.phase ≠ .awaitsLease := by
      rw [awaits]
      exact nofun
    have grows : SseBroker.Grows broker (connection.endResponse broker) :=
      .touches (touches_endResponse connection broker)
    have released := (kept.releaseQuota opened).grow grows
    obtain ⟨heartbeat, count, same⟩ := connection.releaseQuota_eq
    refine ⟨released.counted, released.stopped, released.known, nofun, ?_, ?_⟩
    · rw [same]
      intro listening
      rw [show connection.listening = true from listening] at unheard
      cases unheard
    · intro _ _
      refine ⟨kept.releases.2.2, fun other member => ?_⟩
      rw [same] at member
      cases registered.symm.trans member
      exact grows.closed connectionId (disposed.thrown connectionId (.inr thrown))
  · cases resumed

theorem refreshed (kept : connection.Kept broker) (opened : connection.phase ≠ .awaitsLease)
    (ok : Bool) :
    (connection.refreshed ok broker).1.Kept (connection.refreshed ok broker).2 := by
  cases ok with
  | true => exact kept
  | false => exact (kept.releaseQuota opened).grow (.touches (touches_endResponse connection broker))

/-- Every step of a call keeps its invariant, when the listeners are attached in time. -/
theorem next {action : ConnectionAction} (kept : connection.Kept broker)
    (disposed : broker.Disposed)
    (inTime : action = .resume → ∀ connectionId ∈ connection.registered,
      (broker.registrations.get connectionId).any (· matches .returned) = true →
        connection.closeFired = false)
    (taken : connection.next broker action = some (connection', broker')) :
    connection'.Kept broker' := by
  cases action with
  | decideLease now granted =>
      obtain ⟨unopened, same⟩ := Option.ite_none_right_eq_some.mp taken
      have decided := kept.decideLease unopened now granted
      rw [Option.some.injEq] at same
      rwa [same] at decided
  | resume =>
      obtain ⟨awaits, resumed⟩ := Option.ite_none_right_eq_some.mp taken
      exact kept.resume disposed awaits (inTime rfl) resumed
  | disconnect =>
      cases taken
      exact ⟨kept.counted, kept.stopped, kept.known, kept.unopened, kept.attached, kept.unattached⟩
  | fireClose =>
      obtain ⟨-, same⟩ := Option.ite_none_right_eq_some.mp taken
      cases heard : connection.listening with
      | true =>
          rw [fireClose_eq heard, Option.some.injEq] at same
          cases same
          exact kept.cleanup disposed heard .clientDisconnect true
      | false =>
          rw [fireClose, if_neg (Bool.eq_false_iff.mp heard)] at same
          cases same
          refine ⟨kept.counted, kept.stopped, kept.known, kept.unopened, ?_, kept.unattached⟩
          intro listening
          rw [show connection.listening = true from listening] at heard
          cases heard
  | fireError =>
      obtain ⟨listening, same⟩ := Option.ite_none_right_eq_some.mp taken
      rw [cleanup_eq, Option.some.injEq] at same
      have cleaned := kept.cleanup disposed listening .writeError connection.releaseQuota.closeFired
      cases same
      exact cleaned
  | heartbeat =>
      obtain ⟨beats, same⟩ := Option.ite_none_right_eq_some.mp taken
      cases same
      refine ⟨kept.counted, kept.stopped, kept.known, ?_, kept.attached, kept.unattached⟩
      intro unopened
      rw [(kept.unopened unopened).2.2] at beats
      cases beats
  | refreshed ok =>
      obtain ⟨awaited, same⟩ := Option.ite_none_right_eq_some.mp taken
      have opened : connection.phase ≠ .awaitsLease := by
        intro unopened
        rw [(kept.unopened unopened).2.1] at awaited
        exact lt_irrefl 0 awaited
      have fewer : Kept { connection with refreshing := connection.refreshing - 1 } broker :=
        ⟨kept.counted, kept.stopped, kept.known, fun unopened => absurd unopened opened,
          kept.attached, kept.unattached⟩
      have settled := fewer.refreshed opened ok
      rw [Option.some.injEq] at same
      rwa [same] at settled

end Kept

/-- A call registers a connection, or touches the broker. -/
theorem broker_of_next {action : ConnectionAction}
    (taken : connection.next broker action = some (connection', broker')) :
    (∃ now input, broker' = broker.registerConnection now input) ∨ broker.Touches broker' := by
  cases action with
  | decideLease now granted =>
      obtain ⟨-, same⟩ := Option.ite_none_right_eq_some.mp taken
      cases granted with
      | true =>
          cases same
          exact .inl ⟨now, connection.input, rfl⟩
      | false =>
          cases same
          exact .inr .refl
  | resume =>
      obtain ⟨-, resumed⟩ := Option.ite_none_right_eq_some.mp taken
      obtain ⟨connectionId, -, resumed⟩ := Option.bind_eq_some_iff.mp resumed
      split at resumed
      · cases resumed
        exact .inr .refl
      · cases resumed
        exact .inr (touches_endResponse connection broker)
      · cases resumed
  | disconnect =>
      cases taken
      exact .inr .refl
  | fireClose =>
      obtain ⟨-, same⟩ := Option.ite_none_right_eq_some.mp taken
      cases heard : connection.listening with
      | true =>
          rw [fireClose_eq heard] at same
          cases same
          exact .inr (touches_cleanedBroker .clientDisconnect connection broker)
      | false =>
          rw [fireClose, if_neg (Bool.eq_false_iff.mp heard)] at same
          cases same
          exact .inr .refl
  | fireError =>
      obtain ⟨-, same⟩ := Option.ite_none_right_eq_some.mp taken
      rw [cleanup_eq] at same
      cases same
      exact .inr (touches_cleanedBroker .writeError connection broker)
  | heartbeat =>
      obtain ⟨-, same⟩ := Option.ite_none_right_eq_some.mp taken
      cases same
      exact .inr .refl
  | refreshed ok =>
      obtain ⟨-, same⟩ := Option.ite_none_right_eq_some.mp taken
      cases ok with
      | true =>
          cases same
          exact .inr .refl
      | false =>
          cases same
          exact .inr (touches_endResponse _ broker)

end ServiceConnection

/-! ## Runs -/

namespace SseService

variable {service service' : SseService}

/-- Every call keeps its invariant over a broker that disposes of what it closes. -/
structure Kept (service : SseService) : Prop where
  disposed : service.broker.Disposed
  kept : ∀ connectionLeaseId connection,
    service.connections.get connectionLeaseId = some connection → connection.Kept service.broker

namespace Kept

theorem start (isUp : Bool) : (SseService.start isUp).Kept where
  disposed := .start isUp
  kept _ _ known := by cases known

/-- One call changes, and the broker grows for the others. -/
theorem set (kept : service.Kept) {broker' : SseBroker} (disposed : broker'.Disposed)
    (grows : SseBroker.Grows service.broker broker') (connectionLeaseId : ℕ)
    {connection : ServiceConnection} (own : connection.Kept broker') :
    Kept ⟨broker', service.connections.set connectionLeaseId connection⟩ where
  disposed := disposed
  kept other connection' known := by
    rw [OrderedMap.get_set] at known
    split at known
    · cases known
      exact own
    · exact (kept.kept other connection' known).grow grows

theorem next {K : Type} {codec : JsonCodec K} {action : Action} (kept : service.Kept)
    (inTime : service.AttachesInTime action) (taken : service.next codec action = some service') :
    service'.Kept := by
  cases action with
  | openRealtimeSseConnection connectionLeaseId input =>
      obtain ⟨-, same⟩ := Option.ite_none_right_eq_some.mp taken
      cases same
      exact kept.set kept.disposed (.refl _) connectionLeaseId (.ofInput input _)
  | connection connectionLeaseId action =>
      obtain ⟨connection, known, moved⟩ := Option.bind_eq_some_iff.mp taken
      obtain ⟨⟨connection', broker'⟩, stepped, rfl⟩ := Option.map_eq_some_iff.mp moved
      have own := (kept.kept connectionLeaseId connection known).next kept.disposed
        (fun resumes => by
          subst resumes
          exact inTime connection known) stepped
      rcases ServiceConnection.broker_of_next stepped with ⟨now, input, rfl⟩ | touched
      · exact kept.set (kept.disposed.register now input)
          (.register kept.disposed.wired now input) connectionLeaseId own
      · exact kept.set (kept.disposed.touches touched) (.touches touched) connectionLeaseId own
  | broker action =>
      obtain ⟨-, moved⟩ := Option.ite_none_right_eq_some.mp taken
      obtain ⟨broker', stepped, rfl⟩ := Option.map_eq_some_iff.mp moved
      refine ⟨kept.disposed.step stepped, fun other connection known => ?_⟩
      exact (kept.kept other connection known).grow (.step kept.disposed.wired stepped)

/-- A call that has returned and whose client is gone has given its quota back. -/
theorem givesQuotasBack (kept : service.Kept) : service.GivesQuotasBack := by
  intro connectionLeaseId connection known _ returned quiet
  have own := kept.kept connectionLeaseId connection known
  obtain ⟨released, gone⟩ : connection.quotaReleased = true ∧ connection.Gone service.broker := by
    cases listening : connection.listening with
    | false => exact own.unattached returned listening
    | true =>
        obtain ⟨-, ⟨-, early⟩ | ⟨-, released, gone⟩⟩ := own.attached listening
        · rw [quiet.1] at early
          cases early
        · exact ⟨released, gone⟩
  refine ⟨by rw [own.counted, if_pos released], own.stopped released, ?_⟩
  exact fun connectionId member =>
    kept.disposed.wired.not_mem_of_closed (gone connectionId member)

end Kept

/-- **A gone client gives its quota back**, in every run in which no listeners are attached
after 'close' has fired. -/
theorem givesQuotasBack_of_reaches {K : Type} (codec : JsonCodec K) (isUp : Bool)
    (reached : Reaches (next codec) AttachesInTime (start isUp) service) :
    service.GivesQuotasBack := by
  have kept : service.Kept := reached.invariant (Kept.start isUp)
    fun _ _ _ kept inTime taken => kept.next inTime taken
  exact kept.givesQuotasBack

/-- The client goes after the call has returned. -/
theorem givesQuotasBack_sample : ∃ (service : SseService) (connection : ServiceConnection),
    service.connections.get 1 = some connection ∧ connection.GivesQuotaBack service.broker := by
  obtain ⟨service, reached, facts⟩ := exists_reachable_of_execute
    (admitted (next plainJsonCodec) AttachesInTime) (start true)
    [.openRealtimeSseConnection 1 sampleInput, .connection 1 (.decideLease 0 true),
      .broker (.redis (.runNext (getDemandKey .factionPresenceChanged "f1"))),
      .broker (.redis (.resolve (getDemandKey .factionPresenceChanged "f1"))),
      .broker (.resumeRegistration ⟨0, 1⟩ false), .connection 1 .resume,
      .connection 1 .disconnect, .connection 1 .fireClose, .broker (.settleWrite ⟨0, 1⟩ true),
      .broker (.redis (.runNext (getDemandKey .factionPresenceChanged "f1"))),
      .broker (.redis (.resolve (getDemandKey .factionPresenceChanged "f1"))),
      .broker (.finishCleanup 0)]
    (fun service => (service.connections.get 1).any fun connection =>
      connection.socketClosed ∧ connection.phase = .returned ∧ connection.Quiet service.broker)
    (by decide +kernel)
  obtain ⟨connection, known, facts⟩ := (Option.any_eq_true _ _).mp facts
  obtain ⟨closed, returned, quiet⟩ := of_decide_eq_true facts
  exact ⟨service, connection, known, givesQuotasBack_of_reaches plainJsonCodec true
    (.of_admitted reached) 1 connection known closed returned quiet⟩

/-- The client goes while the registration awaits Redis. 'close' finds no listeners, the broker
drops the connection when its first write fails, and the quota is never released. -/
theorem early_disconnect_keeps_quota :
    ¬ ∀ service : SseService, Reachable (next plainJsonCodec) (start true) service →
      service.GivesQuotasBack := by
  intro claimed
  obtain ⟨service, reached, facts⟩ := exists_reachable_of_execute (next plainJsonCodec)
    (start true)
    [.openRealtimeSseConnection 1 sampleInput, .connection 1 (.decideLease 0 true),
      .connection 1 .disconnect, .connection 1 .fireClose,
      .broker (.redis (.runNext (getDemandKey .factionPresenceChanged "f1"))),
      .broker (.redis (.resolve (getDemandKey .factionPresenceChanged "f1"))),
      .broker (.resumeRegistration ⟨0, 1⟩ false), .connection 1 .resume,
      .broker (.settleWrite ⟨0, 1⟩ true),
      .broker (.redis (.runNext (getDemandKey .factionPresenceChanged "f1"))),
      .broker (.redis (.resolve (getDemandKey .factionPresenceChanged "f1"))),
      .broker (.finishCleanup 0)]
    (fun service => (service.connections.get 1).any fun connection =>
      connection.socketClosed ∧ connection.phase = .returned ∧ connection.Quiet service.broker ∧
        connection.releases = 0 ∧ connection.heartbeat)
    (by decide +kernel)
  obtain ⟨connection, known, facts⟩ := (Option.any_eq_true _ _).mp facts
  obtain ⟨closed, returned, quiet, unreleased, -⟩ := of_decide_eq_true facts
  have given := (claimed service reached 1 connection known closed returned quiet).1
  rw [unreleased] at given
  cases given

end SseService

end EliteHubVault
