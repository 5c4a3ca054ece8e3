import EliteHubVault.Relay.PowerplayReach
import EliteHubVault.Sse.ReadBack

/-!
# Where publications come from

A loop publishes only targets that it found for a row of the outbox. So every publication of a
run is addressed to its payload, which is of the row's event type (`Publication.ComesFrom`).
-/

set_option autoImplicit false
set_option linter.unusedSectionVars false

namespace EliteHubVault

open Library

section Publications

variable {K : Type}

/-! ## Targets of a row -/

theorem RealtimeEventType.text_inj {eventType other : RealtimeEventType} :
    eventType.text = other.text ↔ eventType = other := by
  refine ⟨fun same => ?_, congrArg _⟩
  have known := congrArg RealtimeEventType.ofText? same
  rwa [RealtimeEventType.ofText?_text, RealtimeEventType.ofText?_text, Option.some.injEq] at known

/-- What is published for a row was built from it. -/
theorem built_of_prepared {powers : List SystemPowerplayPowerRow} {row : OutboxRow K}
    {result : RowHandlingResult K} (prepared : prepareRowForPublishing powers row = .ok result)
    {target : PublishTarget K} (member : target ∈ result.targets) :
    ∃ powerIds targets, target ∈ targets ∧
      buildPublishTargetsForOutboxRow row.eventType row.payload row.createdAt powerIds =
        .ok (some targets) := by
  obtain ⟨powerIdsResult, -, prepared⟩ := bind_eq_ok.mp prepared
  cases powerIdsResult with
  | discard discarded =>
      cases prepared
      cases member
  | ok powerIds =>
      obtain ⟨built, made, prepared⟩ := bind_eq_ok.mp prepared
      cases built with
      | none =>
          cases prepared
          cases member
      | some targets =>
          cases targets with
          | nil =>
              cases prepared
              cases member
          | cons first rest =>
              cases prepared
              exact ⟨powerIds, first :: rest, member, made⟩

/-- A row that is no powerplay update is answered with its targets. -/
theorem targets_of_prepared {powers : List SystemPowerplayPowerRow} {row : OutboxRow K}
    {result : RowHandlingResult K} (other : row.eventType ≠ systemPowerplayUpdatedEvent)
    (prepared : prepareRowForPublishing powers row = .ok result) :
    ∃ built, buildPublishTargetsForOutboxRow row.eventType row.payload row.createdAt none =
      .ok built ∧ result.targets = built.getD [] := by
  obtain ⟨powerIdsResult, resolved, prepared⟩ := bind_eq_ok.mp prepared
  obtain rfl := pure_eq_ok.mp ((if_pos other).symm.trans resolved)
  obtain ⟨built, made, prepared⟩ := bind_eq_ok.mp prepared
  refine ⟨built, made, ?_⟩
  cases built with
  | none =>
      cases prepared
      rfl
  | some targets =>
      cases targets with
      | nil =>
          cases prepared
          rfl
      | cons first rest =>
          cases prepared
          rfl

/-- The target is one that was found for the row of the publication. -/
def Publication.ComesFrom (outbox : List (OutboxRow K)) (publication : Publication K) : Prop :=
  ∃ handling : HandledRow K, handling.row = publication.row ∧ handling.Answers outbox ∧
    publication.target ∈ handling.result.targets

theorem Publication.ComesFrom.append {outbox : List (OutboxRow K)} {publication : Publication K}
    (comes : publication.ComesFrom outbox) (inserted : List (OutboxRow K)) :
    publication.ComesFrom (outbox ++ inserted) := by
  obtain ⟨handling, row, answers, member⟩ := comes
  exact ⟨handling, row, answers.append inserted, member⟩

/-- **A publication is addressed to its payload**, and the payload is of the row's type. -/
theorem Publication.ComesFrom.addressed {outbox : List (OutboxRow K)}
    {publication : Publication K} (comes : publication.ComesFrom outbox) :
    publication.target.IsAddressed ∧ ∃ outboxRow, outbox[publication.row]? = some outboxRow ∧
      outboxRow.eventType = publication.target.payload.eventType.text := by
  obtain ⟨handling, row, ⟨outboxRow, stored, prepared⟩, member⟩ := comes
  obtain ⟨powerIds, targets, inTargets, built⟩ := built_of_prepared prepared member
  obtain ⟨addressed, sameType⟩ := publishTargets_addressed built inTargets
  exact ⟨addressed, outboxRow, row ▸ stored, sameType.symm⟩

/-! ## The relay -/

namespace Relay

/-- What is published, and what a loop has left to publish, are targets of their rows. -/
structure Traced (outbox : List (OutboxRow K)) (relay : Relay K) : Prop where
  published : ∀ publication ∈ relay.published, publication.ComesFrom outbox
  remaining : ∀ loop batch handling remaining, relay.batches.get loop = some batch →
    batch.stage = .prepared handling remaining →
      handling.Answers outbox ∧ remaining ⊆ handling.result.targets

namespace Traced

variable {outbox : List (OutboxRow K)} {relay relay' : Relay K}

theorem append (traced : relay.Traced outbox) (inserted : List (OutboxRow K)) :
    relay.Traced (outbox ++ inserted) where
  published publication member := (traced.published publication member).append inserted
  remaining loop batch handling remaining found stage := by
    obtain ⟨answers, all⟩ := traced.remaining loop batch handling remaining found stage
    exact ⟨answers.append inserted, all⟩

/-- A loop goes on with a batch that is as it should be. -/
theorem setBatch (traced : relay.Traced outbox) (loop : ℕ) {batch : Batch K}
    (own : ∀ handling remaining, batch.stage = .prepared handling remaining →
      handling.Answers outbox ∧ remaining ⊆ handling.result.targets) :
    (relay.setBatch loop batch).Traced outbox where
  published := traced.published
  remaining other otherBatch handling remaining found stage := by
    rw [Relay.setBatch, OrderedMap.get_set] at found
    split at found
    · cases found
      exact own handling remaining stage
    · exact traced.remaining other otherBatch handling remaining found stage

theorem step {powers : List SystemPowerplayPowerRow} {action : RelayAction}
    (traced : relay.Traced outbox) (taken : relay.Step outbox powers action relay') :
    relay'.Traced outbox := by
  cases taken with
  | @fetchBatch loop rows idle fetch =>
      refine traced.setBatch loop fun handling remaining stage => ?_
      cases stage
  | @prepareRow loop row rest handled outboxRow result found stored prepared =>
      refine traced.setBatch loop fun handling remaining stage => ?_
      cases stage
      exact ⟨⟨outboxRow, stored, prepared⟩, List.Subset.refl _⟩
  | @publish loop todo handling target remaining handled found =>
      obtain ⟨answers, all⟩ := traced.remaining loop _ handling _ found rfl
      have advanced : (relay.setBatch loop ⟨todo, .prepared handling remaining, handled⟩).Traced
          outbox := by
        refine traced.setBatch loop fun other left stage => ?_
        cases stage
        exact ⟨answers, fun later member => all (List.mem_cons_of_mem _ member)⟩
      refine ⟨fun publication member => ?_, advanced.remaining⟩
      obtain old | new := List.mem_append.mp member
      · exact advanced.published publication old
      · obtain rfl := List.mem_singleton.mp new
        exact ⟨handling, rfl, answers, all List.mem_cons_self⟩
  | @deleteOutboxRow loop row rest handling handled found =>
      refine traced.setBatch loop fun other remaining stage => ?_
      cases stage
  | commit found =>
      exact ⟨traced.published, fun other batch handling remaining foundOther stage =>
        traced.remaining other batch handling remaining (OrderedMap.get_of_get_delete foundOther).2
          stage⟩
  | fail found =>
      exact ⟨traced.published, fun other batch handling remaining foundOther stage =>
        traced.remaining other batch handling remaining (OrderedMap.get_of_get_delete foundOther).2
          stage⟩

end Traced

/-- A step publishes one target at most. -/
theorem published_of_step {outbox : List (OutboxRow K)} {powers : List SystemPowerplayPowerRow}
    {action : RelayAction} {relay relay' : Relay K}
    (taken : relay.Step outbox powers action relay') :
    relay'.published = relay.published ∨
      ∃ publication, relay'.published = relay.published ++ [publication] := by
  cases taken with
  | publish found => exact .inr ⟨_, rfl⟩
  | fetchBatch | prepareRow | deleteOutboxRow | commit | fail => exact .inl rfl

end Relay

end Publications

/-! ## Sites -/

namespace Site

variable {K : Type} [Field K] [LinearOrder K] {P : Platform K} {site site' : Site P}

/-- **All publications of a site come from its outbox.** -/
theorem traced_next {action : SiteAction K} (traced : site.relay.Traced site.db.eventOutbox)
    (taken : site.next action = some site') : site'.relay.Traced site'.db.eventOutbox := by
  cases action with
  | tick clock =>
      obtain ⟨-, same⟩ := Option.ite_none_right_eq_some.mp taken
      cases same
      exact traced
  | begin transaction message =>
      obtain ⟨-, same⟩ := Option.ite_none_right_eq_some.mp taken
      cases same
      exact traced
  | commit transaction env =>
      obtain ⟨open_, -, taken⟩ := Option.bind_eq_some_iff.mp taken
      obtain ⟨-, committed⟩ := Option.ite_none_right_eq_some.mp taken
      obtain ⟨db, processed, rfl⟩ := Option.map_eq_some_iff.mp committed
      obtain ⟨inserted, grown, -⟩ := appends_processMessage (toOption_eq_some.mp processed)
      simp only [grown]
      exact traced.append inserted
  | rollback transaction =>
      obtain ⟨open_, -, rfl⟩ := Option.map_eq_some_iff.mp taken
      exact traced
  | relay action =>
      obtain ⟨relay, stepped, rfl⟩ := Option.map_eq_some_iff.mp taken
      exact traced.step (Relay.step_of_next stepped)

/-- A step of a site publishes one target at most. -/
theorem published_of_next {action : SiteAction K} (taken : site.next action = some site') :
    site'.relay.published = site.relay.published ∨ ∃ publication,
      site'.relay.published = site.relay.published ++ [publication] := by
  obtain same | ⟨relayAction, -, stepped⟩ := relay_of_next taken
  · exact .inl (by rw [same])
  · exact Relay.published_of_step stepped

end Site

end EliteHubVault
