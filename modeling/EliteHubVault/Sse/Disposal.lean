import EliteHubVault.Sse.Wiring

/-!
# Closed connections stay closed

No step of the broker forgets a connection object or opens a closed one. A pending cleanup is
about a closed connection, and a registration that fails leaves a closed connection behind.
-/

set_option autoImplicit false

namespace EliteHubVault

open Library

namespace SseBroker

variable {broker broker' : SseBroker} {connectionId : ConnectionId}

/-- Connections stay known, and closed connections stay closed. -/
structure Grows (before after : SseBroker) : Prop where
  known : ∀ connectionId, (before.connections.get connectionId).isSome →
    (after.connections.get connectionId).isSome
  closed : ∀ connectionId, before.Closed connectionId → after.Closed connectionId

namespace Grows

variable {before middle after : SseBroker}

theorem refl (broker : SseBroker) : Grows broker broker :=
  ⟨fun _ known => known, fun _ closed => closed⟩

theorem trans (first : Grows before middle) (second : Grows middle after) : Grows before after where
  known connectionId known := second.known connectionId (first.known connectionId known)
  closed connectionId closed := second.closed connectionId (first.closed connectionId closed)

theorem of_sameClients (same : SameClients before after) : Grows before after where
  known connectionId known := by
    obtain ⟨connection, found⟩ := Option.isSome_iff_exists.mp known
    obtain ⟨connection', after, -⟩ := same.forth connectionId connection found
    rw [after]
    rfl
  closed connectionId closed := by
    obtain ⟨connection, found, isClosed⟩ := closed
    obtain ⟨connection', after, traffic⟩ := same.forth connectionId connection found
    exact ⟨connection', after, traffic.isClosed.trans isClosed⟩

theorem cleanup {connection : SseConnection} (found : broker.find connectionId = some connection)
    (isOpen : connection.isClosed = false) (reason : SseCloseReason) (caller : CleanupCaller) :
    Grows broker (broker.cleanupConnection connectionId reason caller) where
  known other known := by
    rw [get_cleanupConnection found isOpen]
    split
    · rfl
    · exact known
  closed other closed := by
    unfold Closed
    rw [get_cleanupConnection found isOpen]
    split
    · exact ⟨connection.closed, rfl, rfl⟩
    · exact closed

theorem register (wired : broker.Wired) (now : ℕ) (input : RegisterConnectionInput) :
    Grows broker (broker.registerConnection now input) where
  known other known := by
    rw [get_registerConnection]
    split
    · rfl
    · exact known
  closed other closed := by
    obtain ⟨connection, found, isClosed⟩ := closed
    refine ⟨connection, ?_, isClosed⟩
    rw [get_registerConnection]
    split
    · rename_i same
      rw [same, wired.get_eq_none] at found
      cases found
    · exact found

theorem touch (touched : Touch broker broker') : Grows broker broker' := by
  cases touched with
  | traffic change traffic => exact .of_sameClients (.of_traffic traffic)
  | update known traffic => exact .of_sameClients (.of_update known traffic)
  | cleanup found isOpen => exact .cleanup found isOpen _ _
  | book callbacks kept phases => exact ⟨fun _ known => known, fun _ closed => closed⟩

theorem touches (touched : Touches broker broker') : Grows broker broker' := by
  induction touched with
  | refl => exact refl broker
  | tail _ touched ih => exact ih.trans (touch touched)

theorem redis {event : RedisEvent} (taken : broker.redis event = some broker') :
    Grows broker broker' := by
  obtain ⟨manager, -, rfl⟩ := Option.map_eq_some_iff.mp taken
  exact ⟨fun _ known => known, fun _ closed => closed⟩

theorem step {K : Type} {codec : JsonCodec K} {action : Action} (wired : broker.Wired)
    (taken : broker.next codec action = some broker') : Grows broker broker' := by
  rcases wired.step_cases taken with ⟨now, input, -, rfl⟩ | touched | ⟨event, -, taken⟩
  · exact register wired now input
  · exact touches touched
  · exact redis taken

end Grows

/-! ## Pending cleanups and failed registrations -/

/-- A known connection that is not live is closed. -/
theorem closed_of_not_live (known : (broker.connections.get connectionId).isSome = true)
    (notLive : ¬ broker.Live connectionId) : broker.Closed connectionId := by
  obtain ⟨connection, found⟩ := Option.isSome_iff_exists.mp known
  refine ⟨connection, found, ?_⟩
  by_contra isOpen
  exact notLive ⟨connection, found, Bool.eq_false_of_not_eq_true isOpen⟩

/-- A closed connection is in neither map. -/
theorem Wired.not_mem_of_closed (wired : broker.Wired) (closed : broker.Closed connectionId) :
    connectionId ∉ broker.connectionsById := by
  intro member
  obtain ⟨connection, found, isClosed⟩ := closed
  obtain ⟨other, known, isOpen⟩ := (wired.live connectionId).mp member
  cases found.symm.trans known
  rw [isClosed] at isOpen
  cases isOpen

/-- **What is disposed of is closed.** -/
structure Disposed (broker : SseBroker) : Prop where
  wired : broker.Wired
  cleanups : ∀ cleanup ∈ broker.cleanups, broker.Closed cleanup.connectionId
  known : ∀ connectionId, (broker.registrations.get connectionId).isSome →
    (broker.connections.get connectionId).isSome
  thrown : ∀ connectionId, broker.registrations.get connectionId = some .awaitsCleanup ∨
    broker.registrations.get connectionId = some .thrown → broker.Closed connectionId

namespace Disposed

theorem start (isUp : Bool) : (SseBroker.start isUp).Disposed where
  wired := .start isUp
  cleanups _ member := by cases member
  known _ registered := by cases registered
  thrown _ registered := by rcases registered with registered | registered <;> cases registered

/-- Steps that leave the books as they are. -/
theorem of_grows (disposed : broker.Disposed) (wired : broker'.Wired) (grows : Grows broker broker')
    (cleanups : ∀ cleanup ∈ broker'.cleanups, cleanup ∈ broker.cleanups ∨
      broker'.Closed cleanup.connectionId)
    (registrations : broker'.registrations = broker.registrations) : broker'.Disposed where
  wired := wired
  cleanups cleanup member := by
    rcases cleanups cleanup member with old | closed
    · exact grows.closed _ (disposed.cleanups cleanup old)
    · exact closed
  known connectionId registered := by
    rw [registrations] at registered
    exact grows.known connectionId (disposed.known connectionId registered)
  thrown connectionId registered := by
    rw [registrations] at registered
    exact grows.closed connectionId (disposed.thrown connectionId registered)

theorem register (disposed : broker.Disposed) (now : ℕ) (input : RegisterConnectionInput) :
    (broker.registerConnection now input).Disposed where
  wired := disposed.wired.register now input
  cleanups cleanup member :=
    (Grows.register disposed.wired now input).closed _ (disposed.cleanups cleanup member)
  known other registered := by
    rw [get_registerConnection]
    split
    · rfl
    · rename_i different
      apply disposed.known
      rwa [← OrderedMap.get_set_of_ne broker.registrations _ different]
  thrown other registered := by
    by_cases same : other = ⟨now, broker.nextConnectionId⟩
    · subst same
      have awaits : (broker.registerConnection now input).registrations.get
          ⟨now, broker.nextConnectionId⟩ = some (.awaitsDemand _) := OrderedMap.get_set_self _ _ _
      rw [awaits] at registered
      rcases registered with impossible | impossible <;> cases impossible
    · refine (Grows.register disposed.wired now input).closed _ (disposed.thrown other ?_)
      rwa [← OrderedMap.get_set_of_ne broker.registrations _ same]

theorem touch (disposed : broker.Disposed) (touched : Touch broker broker') :
    broker'.Disposed := by
  have wired := disposed.wired.touch touched
  have grows := Grows.touch touched
  cases touched with
  | traffic => exact disposed.of_grows wired grows (fun _ member => .inl member) rfl
  | update => exact disposed.of_grows wired grows (fun _ member => .inl member) rfl
  | @cleanup connectionId connection reason caller found isOpen =>
      refine disposed.of_grows wired grows (fun cleanup member => ?_)
        (registrations_cleanupConnection _ _ _ broker)
      rw [cleanupConnection_eq found isOpen, List.mem_append, List.mem_singleton] at member
      rcases member with old | rfl
      · exact .inl old
      · refine .inr ⟨connection.closed, ?_, rfl⟩
        rw [get_cleanupConnection found isOpen, if_pos rfl]
  | book callbacks kept phases =>
      refine ⟨wired, fun cleanup member => disposed.cleanups cleanup (kept cleanup member), ?_, ?_⟩
      · intro connectionId registered
        obtain ⟨phase, stored⟩ := Option.isSome_iff_exists.mp registered
        rcases phases connectionId phase stored with old | ⟨registered, -⟩ | ⟨cleanup, member, rfl⟩
        · exact disposed.known connectionId (by rw [old]; rfl)
        · exact disposed.known connectionId registered
        · obtain ⟨connection, found, -⟩ := disposed.cleanups cleanup member
          rw [Option.isSome_iff_exists]
          exact ⟨connection, found⟩
      · intro connectionId failed
        have settled : ∀ phase, broker.registrations.get connectionId = some phase ∨
            ((broker.registrations.get connectionId).isSome ∧
              (phase = .returned ∨ ¬ broker.Live connectionId)) ∨
            (∃ cleanup ∈ broker.cleanups, cleanup.connectionId = connectionId) →
            phase = .awaitsCleanup ∨ phase = .thrown → broker.Closed connectionId := by
          intro phase cases failed
          rcases cases with old | ⟨registered, returned | notLive⟩ | ⟨cleanup, member, rfl⟩
          · refine disposed.thrown connectionId ?_
            rcases failed with rfl | rfl
            · exact .inl old
            · exact .inr old
          · subst returned
            rcases failed with impossible | impossible <;> cases impossible
          · exact closed_of_not_live (disposed.known connectionId registered) notLive
          · exact disposed.cleanups cleanup member
        rcases failed with failed | failed
        · exact settled _ (phases connectionId _ failed) (.inl rfl)
        · exact settled _ (phases connectionId _ failed) (.inr rfl)

theorem touches (disposed : broker.Disposed) (touched : Touches broker broker') :
    broker'.Disposed := by
  induction touched with
  | refl => exact disposed
  | tail _ touched ih => exact ih.touch touched

theorem step {K : Type} {codec : JsonCodec K} {action : Action} (disposed : broker.Disposed)
    (taken : broker.next codec action = some broker') : broker'.Disposed := by
  rcases disposed.wired.step_cases taken with ⟨now, input, -, rfl⟩ | touched | ⟨event, -, taken⟩
  · exact disposed.register now input
  · exact disposed.touches touched
  · refine disposed.of_grows (disposed.wired.redis taken) (.redis taken) ?_ ?_
    · obtain ⟨manager, -, rfl⟩ := Option.map_eq_some_iff.mp taken
      exact fun _ member => .inl member
    · obtain ⟨manager, -, rfl⟩ := Option.map_eq_some_iff.mp taken
      rfl

end Disposed

end SseBroker

end EliteHubVault
