import EliteHubVault.Relay.Batches

/-!
# The relay loses no row

`Relay.Sound` is the invariant of the relay: a deleted row was prepared, and all its targets
are published before the deletion is committed; loops work on different rows, and on none
that a committed batch has deleted. A failed batch only takes facts away, so it keeps the
invariant at once.
-/

set_option autoImplicit false
set_option linter.unusedSectionVars false

namespace EliteHubVault

open Library

variable {K : Type}

/-! ## What holds of a batch -/

namespace HandledRow

/-- The answer is the one that `prepareRowForPublishing` gives. -/
def Answers (outbox : List (OutboxRow K)) (handled : HandledRow K) : Prop :=
  ∃ outboxRow, outbox[handled.row]? = some outboxRow ∧
    prepareRowForPublishing handled.powers outboxRow = .ok handled.result

/-- Every target is published. -/
def PublishedIn (published : List (Publication K)) (handled : HandledRow K) : Prop :=
  ∀ target ∈ handled.result.targets, ⟨handled.row, target⟩ ∈ published

theorem Answers.inside {outbox : List (OutboxRow K)} {handled : HandledRow K}
    (answers : handled.Answers outbox) : handled.row < outbox.length := by
  obtain ⟨outboxRow, stored, -⟩ := answers
  exact (List.getElem?_eq_some_iff.mp stored).1

theorem Answers.append {outbox : List (OutboxRow K)} {handled : HandledRow K}
    (answers : handled.Answers outbox) (inserted : List (OutboxRow K)) :
    handled.Answers (outbox ++ inserted) := by
  obtain ⟨outboxRow, stored, prepared⟩ := answers
  obtain ⟨inside, -⟩ := List.getElem?_eq_some_iff.mp stored
  exact ⟨outboxRow, (List.getElem?_append_left inside).trans stored, prepared⟩

theorem PublishedIn.mono {published published' : List (Publication K)} {handled : HandledRow K}
    (all : handled.PublishedIn published) (grows : published ⊆ published') :
    handled.PublishedIn published' :=
  fun target member => grows (all target member)

end HandledRow

/-- The deleted rows of a batch are settled, and its first row is as far as its stage says. -/
structure Batch.Sound (outbox : List (OutboxRow K)) (published : List (Publication K))
    (batch : Batch K) : Prop where
  handled : ∀ handled ∈ batch.handled, handled.Answers outbox ∧ handled.PublishedIn published
  prepared : ∀ handling remaining, batch.stage = .prepared handling remaining →
    batch.todo.head? = some handling.row ∧ handling.Answers outbox ∧
      ∀ target ∈ handling.result.targets,
        target ∈ remaining ∨ ⟨handling.row, target⟩ ∈ published

namespace Batch.Sound

variable {outbox : List (OutboxRow K)} {published : List (Publication K)} {batch : Batch K}

theorem append (sound : batch.Sound outbox published) (inserted : List (OutboxRow K)) :
    batch.Sound (outbox ++ inserted) published where
  handled handled member :=
    ⟨(sound.handled handled member).1.append inserted, (sound.handled handled member).2⟩
  prepared handling remaining stage := by
    obtain ⟨first, answers, all⟩ := sound.prepared handling remaining stage
    exact ⟨first, answers.append inserted, all⟩

theorem mono {published' : List (Publication K)} (sound : batch.Sound outbox published)
    (grows : published ⊆ published') : batch.Sound outbox published' where
  handled handled member :=
    ⟨(sound.handled handled member).1, (sound.handled handled member).2.mono grows⟩
  prepared handling remaining stage := by
    obtain ⟨first, answers, all⟩ := sound.prepared handling remaining stage
    exact ⟨first, answers, fun target member => (all target member).imp_right fun old => grows old⟩

/-- After a row is fetched or deleted, only the deleted rows matter. -/
theorem of_fetched {todo : List ℕ} {handled : List (HandledRow K)}
    (settled : ∀ row ∈ handled, row.Answers outbox ∧ row.PublishedIn published) :
    Batch.Sound outbox published ⟨todo, .fetched, handled⟩ where
  handled := settled
  prepared _ _ stage := nomatch stage

end Batch.Sound

/-! ## What holds of the relay -/

namespace Relay

/-- **The invariant of the relay.** -/
structure Sound (outbox : List (OutboxRow K)) (relay : Relay K) : Prop where
  removedOnce : relay.removedRows.Nodup
  removed : ∀ removal ∈ relay.removed, removal.Answers outbox ∧
    removal.PublishedIn (relay.published.take removal.publishedBefore)
  batches : ∀ loop batch, relay.batches.get loop = some batch →
    batch.Sound outbox relay.published
  inserted : ∀ publication ∈ relay.published, publication.row < outbox.length
  rows : ∀ loop batch, relay.batches.get loop = some batch →
    batch.rows.Nodup ∧ batch.rows.Disjoint relay.removedRows ∧
      ∀ row ∈ batch.rows, row < outbox.length
  apart : ∀ loop other batch otherBatch, loop ≠ other → relay.batches.get loop = some batch →
    relay.batches.get other = some otherBatch → batch.rows.Disjoint otherBatch.rows

namespace Sound

variable {outbox : List (OutboxRow K)} {relay : Relay K}

theorem empty : Sound outbox (.empty : Relay K) where
  removedOnce := List.nodup_nil
  removed _ member := nomatch member
  batches _ _ found := nomatch found
  inserted _ member := nomatch member
  rows _ _ found := nomatch found
  apart _ _ _ _ _ found := nomatch found

theorem append (sound : Sound outbox relay) (inserted : List (OutboxRow K)) :
    Sound (outbox ++ inserted) relay where
  removedOnce := sound.removedOnce
  removed removal member :=
    ⟨(sound.removed removal member).1.append inserted, (sound.removed removal member).2⟩
  batches loop batch found := (sound.batches loop batch found).append inserted
  inserted publication member := by
    rw [List.length_append]
    exact Nat.lt_add_right _ (sound.inserted publication member)
  rows loop batch found := by
    obtain ⟨once, fresh, inside⟩ := sound.rows loop batch found
    refine ⟨once, fresh, fun row member => ?_⟩
    rw [List.length_append]
    exact Nat.lt_add_right _ (inside row member)
  apart := sound.apart

/-- A message more in the log changes nothing. -/
theorem publish (sound : Sound outbox relay) {publication : Publication K}
    (inside : publication.row < outbox.length) :
    Sound outbox { relay with published := relay.published ++ [publication] } where
  removedOnce := sound.removedOnce
  removed removal member := by
    obtain ⟨answers, all⟩ := sound.removed removal member
    refine ⟨answers, all.mono ?_⟩
    rw [List.take_append]
    exact List.subset_append_left _ _
  batches loop batch found :=
    (sound.batches loop batch found).mono (List.subset_append_left _ _)
  inserted other member := by
    rcases List.mem_append.mp member with old | new
    · exact sound.inserted other old
    · rw [List.mem_singleton.mp new]
      exact inside
  rows := sound.rows
  apart := sound.apart

/-- A loop may open a sound batch on rows that no other loop has and no batch has deleted. -/
theorem setBatch (sound : Sound outbox relay) {loop : ℕ} {batch : Batch K}
    (batchSound : batch.Sound outbox relay.published)
    (rows : batch.rows.Nodup ∧ batch.rows.Disjoint relay.removedRows ∧
      ∀ row ∈ batch.rows, row < outbox.length)
    (others : ∀ other otherBatch, other ≠ loop → relay.batches.get other = some otherBatch →
      batch.rows.Disjoint otherBatch.rows) : Sound outbox (relay.setBatch loop batch) where
  removedOnce := sound.removedOnce
  removed := sound.removed
  batches other otherBatch found := by
    rw [Relay.setBatch, OrderedMap.get_set] at found
    split at found
    · cases found
      exact batchSound
    · exact sound.batches other otherBatch found
  inserted := sound.inserted
  rows other otherBatch found := by
    rw [Relay.setBatch, OrderedMap.get_set] at found
    split at found
    · cases found
      exact rows
    · exact sound.rows other otherBatch found
  apart first second firstBatch secondBatch different foundFirst foundSecond := by
    rw [Relay.setBatch, OrderedMap.get_set] at foundFirst foundSecond
    split at foundFirst
    · rename_i same
      rw [if_neg (same ▸ different.symm)] at foundSecond
      cases foundFirst
      exact others second secondBatch (same ▸ different.symm) foundSecond
    · rename_i distinct
      split at foundSecond
      · cases foundSecond
        exact (others first firstBatch distinct foundFirst).symm
      · exact sound.apart first second firstBatch secondBatch different foundFirst foundSecond

/-- A loop may go on with the rows of its batch. -/
theorem advance (sound : Sound outbox relay) {loop : ℕ} {before after : Batch K}
    (found : relay.batches.get loop = some before) (sameRows : after.rows = before.rows)
    (afterSound : after.Sound outbox relay.published) :
    Sound outbox (relay.setBatch loop after) := by
  refine sound.setBatch afterSound ?_ fun other otherBatch different foundOther => ?_
  · rw [sameRows]
    exact sound.rows loop before found
  · rw [sameRows]
    exact sound.apart loop other before otherBatch different.symm found foundOther

/-- A batch that ends without a deletion leaves the other batches. -/
theorem fail (sound : Sound outbox relay) (loop : ℕ) :
    Sound outbox { relay with batches := relay.batches.delete loop } where
  removedOnce := sound.removedOnce
  removed := sound.removed
  batches other batch found := sound.batches other batch (OrderedMap.get_of_get_delete found).2
  inserted := sound.inserted
  rows other batch found := sound.rows other batch (OrderedMap.get_of_get_delete found).2
  apart first second _ _ different foundFirst foundSecond :=
    sound.apart first second _ _ different (OrderedMap.get_of_get_delete foundFirst).2
      (OrderedMap.get_of_get_delete foundSecond).2

/-- A batch may commit when all its rows are deleted. -/
theorem commit (sound : Sound outbox relay) {loop : ℕ} {batch : Batch K}
    (found : relay.batches.get loop = some batch) (complete : batch.todo = []) :
    Sound outbox { relay with
      batches := relay.batches.delete loop
      removed := relay.removed ++ batch.handled.map fun handled =>
        { handled with publishedBefore := relay.published.length } } := by
  have rows : batch.rows = batch.handledRows := by
    rw [Batch.rows, complete, List.append_nil]
  obtain ⟨once, fresh, -⟩ := sound.rows loop batch found
  constructor
  · rw [Relay.removedRows_commit, ← Batch.handledRows, ← rows]
    exact sound.removedOnce.append once fresh.symm
  · intro removal member
    rcases List.mem_append.mp member with old | new
    · exact sound.removed removal old
    · obtain ⟨handled, inBatch, rfl⟩ := List.mem_map.mp new
      obtain ⟨answers, all⟩ := (sound.batches loop batch found).handled handled inBatch
      refine ⟨answers, ?_⟩
      rw [List.take_length]
      exact all
  · intro other otherBatch foundOther
    exact sound.batches other otherBatch (OrderedMap.get_of_get_delete foundOther).2
  · exact sound.inserted
  · intro other otherBatch foundOther
    obtain ⟨different, before⟩ := OrderedMap.get_of_get_delete foundOther
    obtain ⟨otherOnce, otherFresh, inside⟩ := sound.rows other otherBatch before
    refine ⟨otherOnce, ?_, inside⟩
    rw [Relay.removedRows_commit, ← Batch.handledRows, ← rows]
    exact List.disjoint_append_right.mpr
      ⟨otherFresh, sound.apart other loop otherBatch batch different before found⟩
  · intro first second firstBatch secondBatch different foundFirst foundSecond
    exact sound.apart first second firstBatch secondBatch different
      (OrderedMap.get_of_get_delete foundFirst).2 (OrderedMap.get_of_get_delete foundSecond).2

/-- **A step of a loop keeps the invariant.** -/
theorem step {powers : List SystemPowerplayPowerRow} {action : RelayAction} {relay' : Relay K}
    (sound : Sound outbox relay) (taken : relay.Step outbox powers action relay') :
    Sound outbox relay' := by
  cases taken with
  | @fetchBatch loop rows idle fetch =>
      obtain ⟨once, inside, -⟩ := fetch
      have fresh : ∀ row ∈ rows, row < outbox.length ∧ row ∉ relay.removedRows ∧
          row ∉ relay.locked := fun row member => mem_available.mp (inside row member)
      refine sound.setBatch (.of_fetched fun _ member => nomatch member)
        ⟨once, fun row member => (fresh row member).2.1, fun row member => (fresh row member).1⟩
        fun other otherBatch _ found => ?_
      intro row member locked
      exact (fresh row member).2.2 (mem_locked_iff.mpr ⟨other, otherBatch, found, locked⟩)
  | @prepareRow loop row rest handled outboxRow result found stored prepared =>
      refine sound.advance found rfl ⟨(sound.batches loop _ found).handled, ?_⟩
      intro handling remaining stage
      cases stage
      exact ⟨rfl, ⟨outboxRow, stored, prepared⟩, fun target member => .inl member⟩
  | @publish loop todo handling target remaining handled found =>
      obtain ⟨settled, prepared⟩ :=
        (sound.batches loop _ found).mono (List.subset_append_left _ [⟨handling.row, target⟩])
      obtain ⟨first, answers, all⟩ := prepared handling _ rfl
      refine (sound.publish answers.inside).advance found rfl ⟨settled, ?_⟩
      intro _ _ stage
      cases stage
      refine ⟨first, answers, fun other member => ?_⟩
      rcases all other member with left | done
      · rcases List.mem_cons.mp left with rfl | later
        · exact .inr (List.mem_append_right _ (List.mem_singleton_self _))
        · exact .inl later
      · exact .inr done
  | @deleteOutboxRow loop row rest handling handled found =>
      obtain ⟨settled, prepared⟩ := sound.batches loop _ found
      obtain ⟨first, answers, all⟩ := prepared handling _ rfl
      refine sound.advance found ?_ (.of_fetched ?_)
      · cases first
        simp [Batch.rows, Batch.handledRows]
      · intro other member
        rcases List.mem_append.mp member with old | new
        · exact settled other old
        · cases List.mem_singleton.mp new
          refine ⟨answers, fun target member => ?_⟩
          exact (all target member).resolve_left List.not_mem_nil
  | commit found => exact sound.commit found rfl
  | @fail loop batch found => exact sound.fail loop

end Sound

end Relay

/-! ## Runs -/

namespace OutboxStore

/-- The relay is sound in every state that is reached from the start of the relay. -/
theorem sound_of_reachable {outbox : List (OutboxRow K)} {powers : List SystemPowerplayPowerRow}
    {store : OutboxStore K} (reached : Reachable next (start outbox powers) store) :
    store.relay.Sound store.outbox := by
  induction reached with
  | start => exact .empty
  | @step store store' action _ _ taken ih =>
      cases action with
      | write inserted powers =>
          cases taken
          exact ih.append inserted
      | relay action =>
          obtain ⟨relay, stepped, rfl⟩ := Option.map_eq_some_iff.mp taken
          exact ih.step (Relay.step_of_next stepped)

/-- A removed row is discarded, or all its targets were published before the commit that
removed it; and it is removed once. -/
def LosesNoRow (store : OutboxStore K) : Prop :=
  (∀ removal ∈ store.relay.removed, ∃ outboxRow, store.outbox[removal.row]? = some outboxRow ∧
    ((∃ targets, prepareRowForPublishing removal.powers outboxRow = .ok (.publish targets) ∧
        ∀ target ∈ targets,
          ⟨removal.row, target⟩ ∈ store.relay.published.take removal.publishedBefore) ∨
      ∃ result, prepareRowForPublishing removal.powers outboxRow = .ok (.discard result))) ∧
  store.relay.removedRows.Nodup

theorem losesNoRow_of_sound {store : OutboxStore K} (sound : store.relay.Sound store.outbox) :
    store.LosesNoRow := by
  refine ⟨fun removal member => ?_, sound.removedOnce⟩
  obtain ⟨⟨outboxRow, stored, prepared⟩, all⟩ := sound.removed removal member
  refine ⟨outboxRow, stored, ?_⟩
  cases answer : removal.result with
  | publish targets =>
      rw [answer] at prepared
      unfold HandledRow.PublishedIn at all
      rw [answer] at all
      exact .inl ⟨targets, prepared, all⟩
  | discard result => exact .inr ⟨result, answer ▸ prepared⟩

/-- A row that wedges stays: no batch that contains it can commit. -/
theorem not_mem_removedRows_of_wedges {outbox : List (OutboxRow K)}
    {powers : List SystemPowerplayPowerRow} {store : OutboxStore K}
    (reached : Reachable next (start outbox powers) store) {row : ℕ} {outboxRow : OutboxRow K}
    (stored : store.outbox[row]? = some outboxRow) (wedges : Wedges outboxRow) :
    row ∉ store.relay.removedRows := by
  intro removed
  obtain ⟨removal, member, rfl⟩ := List.mem_map.mp removed
  obtain ⟨⟨other, found, prepared⟩, -⟩ := (sound_of_reachable reached).removed removal member
  cases stored.symm.trans found
  exact not_wedges_of_prepared prepared wedges

/-- **The relay loses no row, and it can handle every row that does not wedge.** From any
contents of the outbox, any number of loops, whatever fails: a removed row is published or
discarded. A row with a valid date is published or discarded exactly when its payload does
not name a system by a text that is no uuid. -/
theorem losesNoRow_and_handles_iff :
    (∀ (outbox : List (OutboxRow K)) (powers : List SystemPowerplayPowerRow)
      (store : OutboxStore K), Reachable next (start outbox powers) store → store.LosesNoRow) ∧
    ∀ (powers : List SystemPowerplayPowerRow) (row : OutboxRow K), ValidCreatedAt row.createdAt →
      ((∃ result, prepareRowForPublishing powers row = .ok result) ↔ ¬ Wedges row) :=
  ⟨fun _ _ _ reached => losesNoRow_of_sound (sound_of_reachable reached),
    fun powers _ valid => prepareRowForPublishing_ends_iff powers valid⟩

end OutboxStore

/-- A faction has entered a system. -/
def presenceRow (createdAt : Timestamp) : OutboxRow ℚ where
  eventType := factionPresenceChangedEvent
  aggregateId := some (.ofNat 1)
  payload := .object [("factionId", .ofUuid (.ofNat 2)), ("systemId", .ofUuid (.ofNat 1)),
    ("change", .string "entered")]
  createdAt := createdAt

/-- A row is published, the batch fails, and the next batch publishes it again and commits. -/
theorem losesNoRow_and_handles_iff_sample :
    (∃ store : OutboxStore ℚ, store.relay.removedRows = [0] ∧ store.LosesNoRow) ∧
      ∃ result, prepareRowForPublishing [] (presenceRow 0) = .ok result := by
  constructor
  · obtain ⟨store, reached, removed⟩ := exists_reachable_of_execute OutboxStore.next
      (OutboxStore.start [presenceRow 0] [])
      ([.fetchBatch 0 [0], .prepareRow 0, .publish 0, .fail 0, .fetchBatch 0 [0], .prepareRow 0,
        .publish 0, .deleteOutboxRow 0, .commit 0].map StoreAction.relay)
      (fun store => store.relay.removedRows = [0]) (by decide +kernel)
    exact ⟨store, of_decide_eq_true removed,
      OutboxStore.losesNoRow_and_handles_iff.1 _ _ store reached⟩
  · refine (OutboxStore.losesNoRow_and_handles_iff.2 [] (presenceRow 0) ?_).mpr ?_
    · unfold ValidCreatedAt
      decide +kernel
    · rintro ⟨powerplay, -⟩
      revert powerplay
      decide +kernel

/-! ## A row that wedges -/

/-- A powerplay update of a system whose id is a text. -/
def wedgingRow : OutboxRow ℚ where
  eventType := systemPowerplayUpdatedEvent
  aggregateId := some (.ofNat 1)
  payload := .object [("systemId", .string "x"), ("changedFields", .array [])]
  createdAt := 0

theorem wedgingRow_cannot_be_handled :
    ValidCreatedAt wedgingRow.createdAt ∧
      ¬ ∃ result, prepareRowForPublishing [] wedgingRow = .ok result := by
  have valid : ValidCreatedAt wedgingRow.createdAt := by
    unfold ValidCreatedAt
    decide +kernel
  refine ⟨valid, fun handled => ?_⟩
  have wedges : Wedges wedgingRow :=
    ⟨rfl, ⟨"x", [], none, none⟩, rfl, by decide +kernel⟩
  obtain ⟨result, prepared⟩ := handled
  exact not_wedges_of_prepared prepared wedges

end EliteHubVault
