import EliteHubVault.Relay.Publishable
import EliteHubVault.Relay.Site

/-!
# Who is told of a powerplay update

A row about powerplay stores no powers. The loop that handles it looks them up in
`systemPowerplayPowers` when it reads the row, so the row goes to the powers of that moment
(`Handling`), whatever the mapping was when the row was inserted. Without failures each of
them is told once.
-/

set_option autoImplicit false
set_option linter.unusedSectionVars false

namespace EliteHubVault

open Library

variable {K : Type}

/-! ## What the triggers write about powerplay -/

/-- The payload of a powerplay update names the system that the event is about. -/
def OutboxInsert.NamesSystem (event : OutboxInsert K) : Prop :=
  event.eventType = systemPowerplayUpdatedEvent → ∃ payload systemId,
    parseSystemPowerplayUpdatedOutboxPayload event.payload = some payload ∧
      event.aggregateId = some systemId ∧ payload.systemId = systemId.toText

theorem OutboxInsert.NamesSystem.of_other {event : OutboxInsert K} {eventType : String}
    (type : event.eventType = eventType) (other : eventType ≠ systemPowerplayUpdatedEvent) :
    event.NamesSystem :=
  fun powerplay => absurd (type.symm.trans powerplay) other

theorem namesSystem_systemPowerplayUpdated [DecidableEq K] {old new : SystemRow K}
    {event : OutboxInsert K} (member : event ∈ enqueueSystemPowerplayUpdatedEvent old new) :
    event.NamesSystem := by
  intro _
  unfold enqueueSystemPowerplayUpdatedEvent at member
  extract_lets changedFields at member
  split at member
  · cases member
  · obtain rfl := List.mem_singleton.mp member
    refine ⟨⟨new.id.toText, changedFields, some "eddn-worker", some []⟩, new.id, ?_, rfl, rfl⟩
    simp [parseSystemPowerplayUpdatedOutboxPayload, Json.required, Json.optional, Json.field?_cons,
      Json.ofUuid, Json.asString?, Json.asRecord?, asStrings?_map_string]

section Triggers

variable [Field K] [LinearOrder K] {P : Platform K}

/-- The powerplay updates in the outbox name their systems. -/
def Db.PowerplayNamed (db : Db P) : Prop :=
  ∀ row ∈ db.eventOutbox, row.NamesSystem

namespace Db.PowerplayNamed

variable {db : Db P}

theorem enqueue (named : db.PowerplayNamed) (now : Timestamp) {inserts : List (OutboxInsert K)}
    (all : ∀ event ∈ inserts, event.NamesSystem) : (db.enqueue now inserts).PowerplayNamed := by
  intro row member
  rcases List.mem_append.mp member with old | new
  · exact named row old
  · obtain ⟨event, inInserts, rfl⟩ := List.mem_map.mp new
    exact all event inInserts

theorem refresh (named : db.PowerplayNamed) (now : Timestamp) (systemId : Uuid) :
    (db.refreshSystemFactionControlThreat now systemId).PowerplayNamed :=
  named.enqueue now fun _ member =>
    .of_other (eventType_of_mem_controlThreatEvents member) (by decide)

theorem foldl_refresh (now : Timestamp) (ids : List Uuid) {db : Db P}
    (named : db.PowerplayNamed) :
    (ids.foldl (refreshSystemFactionControlThreat now) db).PowerplayNamed := by
  induction ids generalizing db with
  | nil => exact named
  | cons systemId rest ih => exact ih (named.refresh now systemId)

theorem afterSystems (now : Timestamp) (changes : List (Change (SystemRow K))) {db : Db P}
    (named : db.PowerplayNamed) : (db.afterSystems now changes).PowerplayNamed := by
  induction changes generalizing db with
  | nil => exact named
  | cons change rest ih =>
      refine ih ?_
      cases change with
      | insert new => exact named
      | delete old => exact named
      | update old new =>
          refine enqueue ?_ now fun event member => namesSystem_systemPowerplayUpdated member
          split
          · exact named.refresh now new.id
          · exact named

/-- Every statement with its triggers keeps that powerplay updates name their systems. -/
theorem statement {now : Timestamp} {db' : Db P} (named : db.PowerplayNamed)
    (step : StatementStep now db db') : db'.PowerplayNamed := by
  cases step with
  | factionStates written =>
      obtain ⟨⟨table, changes⟩, -, rfl⟩ := Option.map_eq_some_iff.mp written
      refine foldl_refresh now _ (foldl_refresh now _ (foldl_refresh now _ ?_))
      have same : ({ db with factionStates := table } : Db P).PowerplayNamed := named
      refine same.enqueue now fun event member => ?_
      obtain ⟨change, -, emitted⟩ := List.mem_flatMap.mp member
      exact .of_other (eventType_of_mem_factionStateChanged emitted) (by decide)
  | systems written =>
      obtain ⟨⟨table, changes⟩, -, rfl⟩ := Option.map_eq_some_iff.mp written
      have same : ({ db with systems := table } : Db P).PowerplayNamed := named
      exact same.afterSystems now changes
  | systemFactions written =>
      obtain ⟨⟨table, changes⟩, -, rfl⟩ := Option.map_eq_some_iff.mp written
      have same : ({ db with systemFactions := table } : Db P).PowerplayNamed := named
      refine same.enqueue now fun event member => ?_
      obtain ⟨change, -, emitted⟩ := List.mem_flatMap.mp member
      exact .of_other (eventType_of_mem_factionPresenceChanged emitted) (by decide)
  | factionConflicts written =>
      obtain ⟨⟨table, changes⟩, -, rfl⟩ := Option.map_eq_some_iff.mp written
      have same : ({ db with factionConflicts := table } : Db P).PowerplayNamed := named
      refine same.enqueue now fun event member => ?_
      obtain ⟨change, -, emitted⟩ := List.mem_flatMap.mp member
      exact .of_other (eventType_of_mem_factionConflictChanged emitted) (by decide)
  | silent _ _ _ _ eventOutbox => exact fun row member => named row (eventOutbox ▸ member)

end Db.PowerplayNamed

/-- **Every powerplay update of the worker names its system.** -/
theorem powerplayNamed_of_workerReachable {db : Db P} (reachable : WorkerReachable db) :
    db.PowerplayNamed :=
  reachable.invariant (fun _ member => nomatch member) fun _ _ _ named step => named.statement step

end Triggers

/-! ## The targets of a powerplay update -/

theorem channels_of_pushSystemPowerplayPublishTargets {outboxPayload : Json K}
    {createdAt : Timestamp} {payload : SystemPowerplayUpdatedOutboxPayload K}
    (parsed : parseSystemPowerplayUpdatedOutboxPayload outboxPayload = some payload)
    {powerIds : List String} {targets all : List (PublishTarget K)}
    (built : pushSystemPowerplayPublishTargets outboxPayload createdAt targets powerIds = .ok all) :
    all.map PublishTarget.channel =
      targets.map PublishTarget.channel ++ powerIds.map getSystemPowerplayUpdatedPowerChannel := by
  induction powerIds generalizing targets with
  | nil =>
      obtain rfl := pure_eq_ok.mp built
      rw [List.map_nil, List.append_nil]
  | cons powerId rest ih =>
      obtain ⟨powerPayload, powerBuilt, built⟩ := bind_eq_ok.mp built
      simp only [buildSystemPowerplayUpdatedPowerScopedPayload, parsed] at powerBuilt
      obtain ⟨timestamp, -, powerBuilt⟩ := bind_eq_ok.mp powerBuilt
      obtain rfl := pure_eq_ok.mp powerBuilt
      rw [ih built, List.map_append, List.append_assoc]
      rfl

/-- **The targets are the powers that are mapped to the system when the row is read.** -/
theorem channels_of_prepareRowForPublishing {powers : List SystemPowerplayPowerRow}
    {row : OutboxRow K} {result : RowHandlingResult K} {systemId : Uuid}
    (named : row.NamesSystem) (type : row.eventType = systemPowerplayUpdatedEvent)
    (about : row.aggregateId = some systemId)
    (prepared : prepareRowForPublishing powers row = .ok result) :
    result.targets.map PublishTarget.channel =
      ((powers.filter fun power => power.systemId = systemId).map
        SystemPowerplayPowerRow.powerId).map
          fun powerId => getSystemPowerplayUpdatedPowerChannel powerId.toText := by
  obtain ⟨payload, systemId', parsed, about', text⟩ := named type
  obtain rfl := Option.some.inj (about.symm.trans about')
  have uuid : Uuid.uuidIn payload.systemId = some systemId := text ▸ Uuid.uuidIn_toText systemId
  obtain ⟨powerIdsResult, resolved, prepared⟩ := bind_eq_ok.mp prepared
  simp only [resolvePowerIds, type, ne_eq, not_true_eq_false, if_false, parsed] at resolved
  obtain ⟨id, found, resolved⟩ := bind_eq_ok.mp resolved
  obtain rfl := Option.some.inj (uuid.symm.trans (orFail_eq_ok.mp found))
  split at resolved
  · rename_i unmapped
    cases pure_eq_ok.mp resolved
    cases pure_eq_ok.mp prepared
    rw [List.length_eq_zero_iff.mp unmapped]
    rfl
  · cases pure_eq_ok.mp resolved
    obtain ⟨targets, built, prepared⟩ := bind_eq_ok.mp prepared
    rw [buildPublishTargetsForOutboxRow, if_pos type] at built
    obtain ⟨all, pushed, built⟩ := bind_eq_ok.mp built
    cases pure_eq_ok.mp built
    have channels := channels_of_pushSystemPowerplayPublishTargets parsed pushed
    rw [Option.getD_some, List.map_nil, List.nil_append, List.map_map] at channels
    rw [List.map_map]
    cases all with
    | nil =>
        cases pure_eq_ok.mp prepared
        exact channels
    | cons first rest =>
        cases pure_eq_ok.mp prepared
        exact channels

/-! ## The handling of one row -/

/-- The loop has not read the row. -/
structure Batch.Unread (row : ℕ) (batch : Batch K) : Prop where
  handled : row ∉ batch.handledRows
  prepared : ∀ handling remaining, batch.stage = .prepared handling remaining → handling.row ≠ row

namespace Relay

/-- What was published for a row, in order. -/
def publishedFor (row : ℕ) (relay : Relay K) : List (PublishTarget K) :=
  (relay.published.filter fun publication => publication.row = row).map Publication.target

/-- No loop has read the row. -/
structure Unread (row : ℕ) (relay : Relay K) : Prop where
  published : relay.publishedFor row = []
  removed : row ∉ relay.removedRows
  batches : ∀ loop batch, relay.batches.get loop = some batch → batch.Unread row

/-- A loop has read the row: it publishes the targets that it found then, has deleted the row,
or has committed the deletion. -/
inductive Handling (handling : HandledRow K) (relay : Relay K) : Prop where
  | publishing {loop : ℕ} {todo : List ℕ} {remaining : List (PublishTarget K)}
      {handled : List (HandledRow K)}
      (found : relay.batches.get loop = some ⟨todo, .prepared handling remaining, handled⟩)
      (fresh : handling.row ∉ relay.removedRows)
      (published : relay.publishedFor handling.row ++ remaining = handling.result.targets)
  | deleted {loop : ℕ} {batch : Batch K} (found : relay.batches.get loop = some batch)
      (member : handling ∈ batch.handled)
      (published : relay.publishedFor handling.row = handling.result.targets)
  | removed (member : handling.row ∈ relay.removedRows)
      (published : relay.publishedFor handling.row = handling.result.targets)

theorem publishedFor_of_append {relay relay' : Relay K} {publication : Publication K}
    (grown : relay'.published = relay.published ++ [publication]) (row : ℕ) :
    relay'.publishedFor row =
      relay.publishedFor row ++ if publication.row = row then [publication.target] else [] := by
  rw [publishedFor, grown, List.filter_append, List.map_append]
  by_cases same : publication.row = row <;> simp [publishedFor, same]

/-- A message for another row. -/
theorem publishedFor_of_other {relay relay' : Relay K} {publication : Publication K}
    (grown : relay'.published = relay.published ++ [publication]) {row : ℕ}
    (other : publication.row ≠ row) : relay'.publishedFor row = relay.publishedFor row := by
  rw [publishedFor_of_append grown, if_neg other, List.append_nil]

/-- The row that a loop publishes is one of its batch. -/
theorem Sound.mem_rows_of_prepared {outbox : List (OutboxRow K)} {relay : Relay K}
    (sound : relay.Sound outbox) {loop : ℕ} {todo : List ℕ} {handling : HandledRow K}
    {remaining : List (PublishTarget K)} {handled : List (HandledRow K)}
    (found : relay.batches.get loop = some ⟨todo, .prepared handling remaining, handled⟩) :
    handling.row ∈ todo ∧ handling.row ∉ relay.removedRows ∧
      handling.row ∉ handled.map HandledRow.row := by
  obtain ⟨first, -⟩ := (sound.batches loop _ found).prepared handling remaining rfl
  obtain ⟨once, fresh, -⟩ := sound.rows loop _ found
  have member : handling.row ∈ todo := List.mem_of_mem_head? first
  refine ⟨member, fun removed => fresh (List.mem_append_right _ member) removed, fun again => ?_⟩
  exact (List.nodup_append.mp once).2.2 _ again _ member rfl

/-- Two loops do not handle one row. -/
theorem Sound.loop_unique {outbox : List (OutboxRow K)} {relay : Relay K}
    (sound : relay.Sound outbox) {loop other row : ℕ} {batch otherBatch : Batch K}
    (found : relay.batches.get loop = some batch) (member : row ∈ batch.rows)
    (foundOther : relay.batches.get other = some otherBatch) (member' : row ∈ otherBatch.rows) :
    loop = other := by
  by_contra different
  exact sound.apart loop other batch otherBatch different found foundOther member member'

section Steps

variable {outbox : List (OutboxRow K)} {relay relay' : Relay K}
  {powers : List SystemPowerplayPowerRow} {action : RelayAction}

theorem Unread.setBatch {row loop : ℕ} {batch : Batch K} (unread : relay.Unread row)
    (here : batch.Unread row) : (relay.setBatch loop batch).Unread row where
  published := unread.published
  removed := unread.removed
  batches other otherBatch found := by
    rw [Relay.setBatch, OrderedMap.get_set] at found
    split at found
    · cases found
      exact here
    · exact unread.batches other otherBatch found

/-- The action reads the row: it is the first that the loop has left. -/
def Reads (row : ℕ) (relay : Relay K) (action : RelayAction) : Prop :=
  ∃ loop rest handled, action = .prepareRow loop ∧
    relay.batches.get loop = some ⟨row :: rest, .fetched, handled⟩

/-- A row stays unread until a loop prepares it, with the powers that are stored then. -/
theorem Unread.step {row : ℕ} (unread : relay.Unread row)
    (taken : relay.Step outbox powers action relay') :
    relay'.Unread row ∨ relay.Reads row action ∧ ∃ outboxRow result,
      outbox[row]? = some outboxRow ∧ prepareRowForPublishing powers outboxRow = .ok result ∧
      relay'.Handling ⟨row, powers, result⟩ := by
  cases taken with
  | fetchBatch idle fetch =>
      exact .inl (unread.setBatch ⟨List.not_mem_nil, fun _ _ stage => nomatch stage⟩)
  | @prepareRow loop first rest handled outboxRow result found stored prepared =>
      by_cases same : first = row
      · subst same
        refine .inr ⟨⟨loop, rest, handled, rfl, found⟩, outboxRow, result, stored, prepared, .publishing
          (OrderedMap.get_set_self _ _ _) unread.removed ?_⟩
        exact congrArg (· ++ result.targets) unread.published
      · refine .inl (unread.setBatch ⟨(unread.batches loop _ found).handled, ?_⟩)
        rintro handling remaining stage
        cases stage
        exact same
  | @publish loop todo handling target remaining handled found =>
      have apart := (unread.batches loop _ found).prepared handling _ rfl
      have before : (relay.setBatch loop ⟨todo, .prepared handling remaining, handled⟩).Unread row :=
        unread.setBatch ⟨(unread.batches loop _ found).handled, fun _ _ stage => by
          cases stage
          exact apart⟩
      exact .inl ⟨(publishedFor_of_other rfl apart).trans unread.published, before.removed,
        before.batches⟩
  | @deleteOutboxRow loop first rest handling handled found =>
      have here := unread.batches loop _ found
      refine .inl (unread.setBatch ⟨fun member => ?_, fun _ _ stage => nomatch stage⟩)
      simp only [Batch.handledRows, List.map_append, List.mem_append] at member
      rcases member with old | new
      · exact here.handled old
      · exact here.prepared handling _ rfl (List.mem_singleton.mp new).symm
  | @commit loop handled found =>
      refine .inl ⟨unread.published, ?_, fun other otherBatch foundOther =>
        unread.batches other otherBatch (OrderedMap.get_of_get_delete foundOther).2⟩
      rw [removedRows_commit, List.mem_append, not_or]
      exact ⟨unread.removed, (unread.batches loop _ found).handled⟩
  | @fail loop batch found =>
      exact .inl ⟨unread.published, unread.removed, fun other otherBatch foundOther =>
        unread.batches other otherBatch (OrderedMap.get_of_get_delete foundOther).2⟩

/-- The batch of another loop is left alone by `setBatch`. -/
theorem get_setBatch_of_ne {loop other : ℕ} {batch : Batch K} (different : other ≠ loop) :
    (relay.setBatch loop batch).batches.get other = relay.batches.get other :=
  OrderedMap.get_set_of_ne _ _ different

/-- Loops whose batches differ are different. -/
theorem loop_ne {loop other : ℕ} {batch : Batch K} {entry : Option (Batch K)}
    (found : relay.batches.get loop = some batch) (foundOther : relay.batches.get other = entry)
    (differ : entry ≠ some batch) : loop ≠ other := by
  rintro rfl
  exact differ (foundOther.symm.trans found)

/-- Another loop prepares another row. -/
theorem Sound.row_ne (sound : relay.Sound outbox) {loop other row : ℕ} {batch : Batch K}
    (found : relay.batches.get loop = some batch) (inRows : row ∈ batch.rows)
    {todo : List ℕ} {handling : HandledRow K} {remaining : List (PublishTarget K)}
    {handled : List (HandledRow K)}
    (foundOther : relay.batches.get other = some ⟨todo, .prepared handling remaining, handled⟩)
    (different : loop ≠ other) : handling.row ≠ row := by
  rintro rfl
  refine different (sound.loop_unique found inRows foundOther ?_)
  exact List.mem_append_right _ (sound.mem_rows_of_prepared foundOther).1

/-- **Without a failure a loop goes on with the targets that it found.** -/
theorem Handling.step {handling : HandledRow K} (handled : relay.Handling handling)
    (sound : relay.Sound outbox) (taken : relay.Step outbox powers action relay')
    (works : ∀ loop, action ≠ .fail loop) : relay'.Handling handling := by
  cases handled with
  | @publishing loop todo remaining earlier found fresh published =>
      obtain ⟨inTodo, -, -⟩ := sound.mem_rows_of_prepared found
      have inRows : handling.row ∈ (Batch.mk todo (.prepared handling remaining) earlier).rows :=
        List.mem_append_right _ inTodo
      cases taken with
      | @fetchBatch other rows idle fetch =>
          have different := loop_ne found idle (by simp)
          exact .publishing ((get_setBatch_of_ne different).trans found) fresh published
      | @prepareRow other first rest done outboxRow result foundOther stored prepared =>
          have different := loop_ne found foundOther (by simp)
          exact .publishing ((get_setBatch_of_ne different).trans found) fresh published
      | @publish other todo' handling' target remaining' done foundOther =>
          by_cases same : loop = other
          · subst same
            cases found.symm.trans foundOther
            refine .publishing (OrderedMap.get_set_self _ _ _) fresh ?_
            rw [publishedFor_of_append rfl, if_pos rfl, List.append_assoc]
            exact published
          · have apart := sound.row_ne found inRows foundOther same
            refine .publishing ((get_setBatch_of_ne same).trans found) fresh ?_
            rw [publishedFor_of_other rfl apart]
            exact published
      | @deleteOutboxRow other first rest handling' done foundOther =>
          by_cases same : loop = other
          · subst same
            cases found.symm.trans foundOther
            refine .deleted (OrderedMap.get_set_self _ _ _)
              (List.mem_append_right _ (List.mem_singleton_self _)) ?_
            rwa [List.append_nil] at published
          · exact .publishing ((get_setBatch_of_ne same).trans found) fresh published
      | @commit other done foundOther =>
          have different := loop_ne found foundOther (by simp)
          refine .publishing ((OrderedMap.get_delete_of_ne _ different).trans found) ?_ published
          rw [removedRows_commit, List.mem_append, not_or]
          exact ⟨fresh, fun inDone => different (sound.loop_unique found inRows foundOther
            (List.mem_append_left _ inDone))⟩
      | @fail other => exact absurd rfl (works other)
  | @deleted loop batch found member published =>
      have inHandled : handling.row ∈ batch.handledRows := List.mem_map_of_mem member
      have inRows : handling.row ∈ batch.rows := List.mem_append_left _ inHandled
      cases taken with
      | @fetchBatch other rows idle fetch =>
          have different := loop_ne found idle (by simp)
          exact .deleted ((get_setBatch_of_ne different).trans found) member published
      | @prepareRow other first rest done outboxRow result foundOther stored prepared =>
          by_cases same : loop = other
          · subst same
            cases found.symm.trans foundOther
            exact .deleted (OrderedMap.get_set_self _ _ _) member published
          · exact .deleted ((get_setBatch_of_ne same).trans found) member published
      | @publish other todo' handling' target remaining' done foundOther =>
          obtain ⟨-, -, apart⟩ := sound.mem_rows_of_prepared foundOther
          by_cases same : loop = other
          · subst same
            cases found.symm.trans foundOther
            have other : handling'.row ≠ handling.row := fun sameRow => apart (sameRow ▸ inHandled)
            refine .deleted (OrderedMap.get_set_self _ _ _) member ?_
            rw [publishedFor_of_other rfl other]
            exact published
          · have apart := sound.row_ne found inRows foundOther same
            refine .deleted ((get_setBatch_of_ne same).trans found) member ?_
            rw [publishedFor_of_other rfl apart]
            exact published
      | @deleteOutboxRow other first rest handling' done foundOther =>
          by_cases same : loop = other
          · subst same
            cases found.symm.trans foundOther
            exact .deleted (OrderedMap.get_set_self _ _ _) (List.mem_append_left _ member) published
          · exact .deleted ((get_setBatch_of_ne same).trans found) member published
      | @commit other done foundOther =>
          by_cases same : loop = other
          · subst same
            cases found.symm.trans foundOther
            refine .removed ?_ published
            rw [removedRows_commit]
            exact List.mem_append_right _ inHandled
          · exact .deleted ((OrderedMap.get_delete_of_ne _ same).trans found) member published
      | @fail other => exact absurd rfl (works other)
  | removed member published =>
      cases taken with
      | fetchBatch idle fetch => exact .removed member published
      | prepareRow found stored prepared => exact .removed member published
      | @publish other todo' handling' target remaining' done foundOther =>
          have apart : handling'.row ≠ handling.row := fun sameRow =>
            (sound.mem_rows_of_prepared foundOther).2.1 (sameRow ▸ member)
          refine .removed member ?_
          rw [publishedFor_of_other rfl apart]
          exact published
      | deleteOutboxRow found => exact .removed member published
      | commit found =>
          refine .removed ?_ published
          rw [removedRows_commit]
          exact List.mem_append_left _ member
      | @fail other => exact absurd rfl (works other)

end Steps

/-! ## Who is told -/

/-- The row goes to these powers: each is told once, and by the time that the row is removed
all of them are. -/
structure PublishesOnceTo (row : ℕ) (powers : List Uuid) (relay : Relay K) : Prop where
  only : ∀ target ∈ relay.publishedFor row, ∃ powerId ∈ powers,
    target.channel = getSystemPowerplayUpdatedPowerChannel powerId.toText
  once : ((relay.publishedFor row).map PublishTarget.channel).Nodup
  all : row ∈ relay.removedRows → ∀ powerId ∈ powers, ∃ target ∈ relay.publishedFor row,
    target.channel = getSystemPowerplayUpdatedPowerChannel powerId.toText

theorem powerChannel_injective :
    Function.Injective fun powerId : Uuid =>
      getSystemPowerplayUpdatedPowerChannel powerId.toText := by
  intro powerId powerId' same
  exact Uuid.toText_injective (String.append_right_inj _ |>.mp same)

theorem Handling.publishesOnceTo {relay : Relay K} {handling : HandledRow K} {powers : List Uuid}
    (handled : relay.Handling handling) (distinct : powers.Nodup)
    (channels : handling.result.targets.map PublishTarget.channel =
      powers.map fun powerId => getSystemPowerplayUpdatedPowerChannel powerId.toText) :
    relay.PublishesOnceTo handling.row powers := by
  have once : (handling.result.targets.map PublishTarget.channel).Nodup := by
    rw [channels]
    exact distinct.map powerChannel_injective
  have toPower : ∀ target ∈ handling.result.targets, ∃ powerId ∈ powers,
      target.channel = getSystemPowerplayUpdatedPowerChannel powerId.toText := by
    intro target member
    have mapped := List.mem_map_of_mem (f := PublishTarget.channel) member
    rw [channels] at mapped
    obtain ⟨powerId, inPowers, same⟩ := List.mem_map.mp mapped
    exact ⟨powerId, inPowers, same.symm⟩
  have toAll : ∀ powerId ∈ powers, ∃ target ∈ handling.result.targets,
      target.channel = getSystemPowerplayUpdatedPowerChannel powerId.toText := by
    intro powerId member
    have mapped := List.mem_map_of_mem (f := fun powerId : Uuid =>
      getSystemPowerplayUpdatedPowerChannel powerId.toText) member
    rw [← channels] at mapped
    exact List.mem_map.mp mapped
  cases handled with
  | publishing found fresh published =>
      have part : relay.publishedFor handling.row <+: handling.result.targets :=
        ⟨_, published⟩
      exact ⟨fun target member => toPower target (part.subset member),
        once.sublist (part.sublist.map _), fun removed => absurd removed fresh⟩
  | deleted found member published => exact ⟨published ▸ toPower, published ▸ once,
      fun _ => published ▸ toAll⟩
  | removed member published => exact ⟨published ▸ toPower, published ▸ once,
      fun _ => published ▸ toAll⟩

end Relay

/-! ## Runs of the site -/

namespace Site

variable [Field K] [LinearOrder K] {P : Platform K}

/-- The step is no failure of the relay. -/
def NoFailure (_ : Site P) (action : SiteAction K) : Prop :=
  ∀ loop, action ≠ .relay (.fail loop)

/-- The powers that are mapped to a system. -/
def powersOf (systemId : Uuid) (site : Site P) : List Uuid :=
  (site.db.systemPowerplayPowers.rows.filter fun power => power.systemId = systemId).map
    SystemPowerplayPowerRow.powerId

theorem nodup_powersOf (systemId : Uuid) (site : Site P) : (site.powersOf systemId).Nodup := by
  refine List.pairwise_map.mpr ((site.db.systemPowerplayPowers.unique.filter _).imp_of_mem ?_)
  intro row row' member member' apart same
  have here : row.systemId = systemId := by simpa using (List.mem_filter.mp member).2
  have here' : row'.systemId = systemId := by simpa using (List.mem_filter.mp member').2
  exact apart (congrArg₂ SystemPowerplayPowerRow.mk (here.trans here'.symm) same)

/-- What a site keeps: the worker wrote its database, and its relay is sound. -/
structure Consistent (site : Site P) : Prop where
  worker : WorkerReachable site.db
  relay : site.relay.Sound site.db.eventOutbox

theorem Consistent.step {site site' : Site P} {action : SiteAction K} (consistent : site.Consistent)
    (taken : site.next action = some site') : site'.Consistent ∧
      ∃ inserted, site'.db.eventOutbox = site.db.eventOutbox ++ inserted := by
  cases action with
  | tick clock =>
      obtain ⟨-, same⟩ := Option.ite_none_right_eq_some.mp taken
      cases same
      exact ⟨⟨consistent.worker, consistent.relay⟩, [], (List.append_nil _).symm⟩
  | begin transaction message =>
      obtain ⟨-, same⟩ := Option.ite_none_right_eq_some.mp taken
      cases same
      exact ⟨⟨consistent.worker, consistent.relay⟩, [], (List.append_nil _).symm⟩
  | commit transaction env =>
      obtain ⟨open_, -, taken⟩ := Option.bind_eq_some_iff.mp taken
      obtain ⟨-, committed⟩ := Option.ite_none_right_eq_some.mp taken
      obtain ⟨db, processed, rfl⟩ := Option.map_eq_some_iff.mp committed
      have done := toOption_eq_some.mp processed
      obtain ⟨inserted, grown, -⟩ := appends_processMessage done
      refine ⟨⟨?_, ?_⟩, inserted, grown⟩
      · refine consistent.worker.step (a := (env, open_.message)) trivial ?_
        rw [workerStep, done]
        rfl
      · simp only [grown]
        exact consistent.relay.append inserted
  | rollback transaction =>
      obtain ⟨open_, -, rfl⟩ := Option.map_eq_some_iff.mp taken
      exact ⟨⟨consistent.worker, consistent.relay⟩, [], (List.append_nil _).symm⟩
  | relay action =>
      obtain ⟨relay, stepped, rfl⟩ := Option.map_eq_some_iff.mp taken
      exact ⟨⟨consistent.worker, consistent.relay.step (Relay.step_of_next stepped)⟩, [],
        (List.append_nil _).symm⟩

/-- A step of the site leaves the relay, or is one of its steps. -/
theorem relay_of_next {site site' : Site P} {action : SiteAction K}
    (taken : site.next action = some site') : site'.relay = site.relay ∨
      ∃ relayAction, action = .relay relayAction ∧ site.relay.Step site.db.eventOutbox
        site.db.systemPowerplayPowers.rows relayAction site'.relay := by
  cases action with
  | tick clock =>
      obtain ⟨-, same⟩ := Option.ite_none_right_eq_some.mp taken
      cases same
      exact .inl rfl
  | begin transaction message =>
      obtain ⟨-, same⟩ := Option.ite_none_right_eq_some.mp taken
      cases same
      exact .inl rfl
  | commit transaction env =>
      obtain ⟨open_, -, taken⟩ := Option.bind_eq_some_iff.mp taken
      obtain ⟨-, committed⟩ := Option.ite_none_right_eq_some.mp taken
      obtain ⟨db, processed, rfl⟩ := Option.map_eq_some_iff.mp committed
      exact .inl rfl
  | rollback transaction =>
      obtain ⟨open_, -, rfl⟩ := Option.map_eq_some_iff.mp taken
      exact .inl rfl
  | relay action =>
      obtain ⟨relay, stepped, rfl⟩ := Option.map_eq_some_iff.mp taken
      exact .inr ⟨action, rfl, Relay.step_of_next stepped⟩

theorem consistent_of_reaches {db : Db P} {clock : Timestamp} {site : Site P}
    (reachable : WorkerReachable db) (run : Reaches next NoFailure (start db clock) site) :
    site.Consistent :=
  run.invariant ⟨reachable, .empty⟩ fun _ _ _ consistent _ taken => (consistent.step taken).1

/-- A row that is not inserted yet is not read. -/
theorem unread_of_sound {outbox : List (OutboxRow K)} {relay : Relay K} {row : ℕ}
    (sound : relay.Sound outbox) (fresh : outbox.length ≤ row) : relay.Unread row := by
  have inside : ∀ {other : ℕ}, other < outbox.length → other ≠ row := fun small => by omega
  refine ⟨?_, fun removed => ?_, fun loop batch found => ⟨fun member => ?_, fun handling remaining
    stage => ?_⟩⟩
  · rw [Relay.publishedFor, List.filter_eq_nil_iff.mpr, List.map_nil]
    intro publication member
    simpa using inside (sound.inserted publication member)
  · obtain ⟨removal, member, same⟩ := List.mem_map.mp removed
    exact inside (sound.removed removal member).1.inside same
  · exact inside ((sound.rows loop batch found).2.2 row (List.mem_append_left _ member)) rfl
  · exact inside ((sound.batches loop batch found).prepared handling remaining stage).2.1.inside

/-- The run has not read the row, or it read it in a state `reading` and handles it as it
was mapped then. -/
inductive ReadIn (row : ℕ) (outboxRow : OutboxRow K) (committed after : Site P) : Prop where
  | unread (unread : after.relay.Unread row)
  | read {reading read : Site P} {action : RelayAction} {result : RowHandlingResult K}
      (before : Reaches next NoFailure committed reading)
      (reads : reading.relay.Reads row action)
      (taken : reading.next (.relay action) = some read)
      (later : Reaches next NoFailure read after)
      (prepared : prepareRowForPublishing reading.db.systemPowerplayPowers.rows outboxRow =
        .ok result)
      (handled : after.relay.Handling ⟨row, reading.db.systemPowerplayPowers.rows, result⟩)

/-- **Every run reads a row once.** -/
theorem readIn_of_reaches {row : ℕ} {outboxRow : OutboxRow K} {committed after : Site P}
    (consistent : committed.Consistent) (unread : committed.relay.Unread row)
    (stored : committed.db.eventOutbox[row]? = some outboxRow)
    (run : Reaches next NoFailure committed after) :
    after.Consistent ∧ after.db.eventOutbox[row]? = some outboxRow ∧
      ReadIn row outboxRow committed after := by
  induction run with
  | start => exact ⟨consistent, stored, .unread unread⟩
  | @step site site' action before works taken ih =>
      obtain ⟨consistent, stored, readIn⟩ := ih
      obtain ⟨consistent', inserted, grown⟩ := consistent.step taken
      refine ⟨consistent', ?_, ?_⟩
      · rw [grown, List.getElem?_append_left (List.getElem?_eq_some_iff.mp stored).1, stored]
      · cases readIn with
        | unread unread =>
            obtain same | ⟨relayAction, rfl, step⟩ := relay_of_next taken
            · exact .unread (same ▸ unread)
            · obtain still | ⟨reads, otherRow, result, found, prepared, handled⟩ := unread.step step
              · exact .unread still
              · obtain rfl := Option.some.inj (found.symm.trans stored)
                exact .read before reads taken .start prepared handled
        | read earlier reads read later prepared handled =>
            refine .read earlier reads read (later.step works taken) prepared ?_
            obtain same | ⟨relayAction, rfl, step⟩ := relay_of_next taken
            · exact same ▸ handled
            · exact handled.step consistent.relay step fun loop failed =>
                works loop (by rw [failed])

/-- **A powerplay update goes to the powers that are mapped when the relay reads it**, once to
each and to no other, in every interleaving of worker transactions and relay loops that has
no failure. -/
theorem powerplay_update_reaches_powers_when_read {db : Db P} {clock : Timestamp}
    {before committed after : Site P} {transaction row : ℕ} {env : TxEnv}
    {outboxRow : OutboxRow K} {systemId : Uuid} (reachable : WorkerReachable db)
    (earlier : Reaches next NoFailure (start db clock) before)
    (commits : before.next (.commit transaction env) = some committed)
    (inserted : before.db.eventOutbox.length ≤ row)
    (stored : committed.db.eventOutbox[row]? = some outboxRow)
    (type : outboxRow.eventType = systemPowerplayUpdatedEvent)
    (about : outboxRow.aggregateId = some systemId)
    (run : Reaches next NoFailure committed after) :
    after.relay.Unread row ∨ ∃ reading read action,
      Reaches next NoFailure committed reading ∧ reading.relay.Reads row action ∧
        reading.next (.relay action) = some read ∧ Reaches next NoFailure read after ∧
        after.relay.PublishesOnceTo row (reading.powersOf systemId) := by
  have consistent := consistent_of_reaches reachable earlier
  have unread : committed.relay.Unread row := by
    obtain same | ⟨relayAction, impossible, -⟩ := relay_of_next commits
    · exact same ▸ unread_of_sound consistent.relay inserted
    · cases impossible
  obtain ⟨consistent', stored', readIn⟩ :=
    readIn_of_reaches (consistent.step commits).1 unread stored run
  cases readIn with
  | unread still => exact .inl still
  | @read reading read action result earlier reads taken later prepared handled =>
      have named : outboxRow.NamesSystem :=
        powerplayNamed_of_workerReachable consistent'.worker outboxRow
          (List.mem_of_getElem? stored')
      exact .inr ⟨reading, read, action, earlier, reads, taken, later,
        handled.publishesOnceTo (nodup_powersOf systemId reading)
          (channels_of_prepareRowForPublishing named type about prepared)⟩

end Site

/-! ## Sample runs -/

/-- A jump into a system of one power. -/
def samplePower (power : String) (powerplayState : Option String) : JournalMessage ℚ :=
  .fsdJump { sampleMessage none [] with powers := some [power], powerplayState }

/-- A system of Aisling Duval is exploited, and is to be reported as fortified. -/
def sampleUpdate : List (SiteAction ℚ) :=
  [.begin 0 (samplePower "Aisling Duval" (some "Exploited")), .commit 0 (sampleEnv 1), .tick 2,
    .begin 1 (samplePower "Aisling Duval" (some "Fortified"))]

/-- Edmund Mahon takes the system before the relay reads the row. -/
def sampleTakeover : List (SiteAction ℚ) :=
  [.tick 3, .begin 2 (samplePower "Edmund Mahon" none), .commit 2 (sampleEnv 3),
    .relay (.fetchBatch 0 [0])] ++ handleNextRow ++ [.relay (.commit 0)]

/-- The update is inserted when Aisling Duval has the system, and published to Edmund Mahon. -/
theorem sampleTakeover_run : ∃ before committed after : Site asciiPlatform, ∃ outboxRow,
    Reaches Site.next Site.NoFailure (Site.start Db.empty 1) before ∧
      before.next (.commit 1 (sampleEnv 2)) = some committed ∧
      before.db.eventOutbox.length ≤ 0 ∧ committed.db.eventOutbox[0]? = some outboxRow ∧
      outboxRow.eventType = systemPowerplayUpdatedEvent ∧
      outboxRow.aggregateId = some (.ofNat 1000) ∧
      Reaches Site.next Site.NoFailure committed after ∧ 0 ∈ after.relay.removedRows ∧
      ∃ powerId ∈ committed.powersOf (.ofNat 1000), ∀ target ∈ after.relay.publishedFor 0,
        target.channel ≠ getSystemPowerplayUpdatedPowerChannel powerId.toText := by
  obtain ⟨before, run, observed⟩ := exists_reaches_of_execute Site.next Site.NoFailure
    (Site.start (Db.empty : Db asciiPlatform) 1) sampleUpdate
    (fun before => decide (before.db.eventOutbox.length ≤ 0) &&
      (before.next (.commit 1 (sampleEnv 2))).any fun committed =>
        (committed.db.eventOutbox[0]?.any fun row => row.eventType = systemPowerplayUpdatedEvent ∧
          row.aggregateId = some (.ofNat 1000)) &&
        (execute Site.next committed sampleTakeover).any fun after =>
          0 ∈ after.relay.removedRows ∧ ∃ powerId ∈ committed.powersOf (.ofNat 1000),
            ∀ target ∈ after.relay.publishedFor 0,
              target.channel ≠ getSystemPowerplayUpdatedPowerChannel powerId.toText)
    (by simp [sampleUpdate, Site.NoFailure]) (by decide +kernel)
  obtain ⟨empty, observed⟩ := Bool.and_eq_true_iff.mp observed
  obtain ⟨committed, commits, observed⟩ := (Option.any_eq_true _ _).mp observed
  obtain ⟨inserted, observed⟩ := Bool.and_eq_true_iff.mp observed
  obtain ⟨outboxRow, stored, about⟩ := (Option.any_eq_true _ _).mp inserted
  obtain ⟨after, ran, told⟩ := (Option.any_eq_true _ _).mp observed
  obtain ⟨type, aggregate⟩ := of_decide_eq_true about
  obtain ⟨removed, missed⟩ := of_decide_eq_true told
  exact ⟨before, committed, after, outboxRow, run, commits, of_decide_eq_true empty, stored, type,
    aggregate, .of_execute (by simp [sampleTakeover, handleNextRow, Site.NoFailure]) ran, removed,
    missed⟩

theorem powerplay_update_reaches_powers_when_read_sample :
    ∃ reading after : Site asciiPlatform, 0 ∈ after.relay.removedRows ∧
      after.relay.PublishesOnceTo 0 (reading.powersOf (.ofNat 1000)) := by
  obtain ⟨before, committed, after, outboxRow, run, commits, inserted, stored, type, about, later,
    removed, -⟩ := sampleTakeover_run
  obtain unread | ⟨reading, read, action, -, -, -, -, told⟩ :=
    Site.powerplay_update_reaches_powers_when_read .start run commits inserted stored type about later
  · exact absurd removed unread.removed
  · exact ⟨reading, after, removed, told⟩

/-- The power that had the system when the update was committed is never told. -/
theorem sampleTakeover_misses_power_mapped_at_commit :
    ∃ before committed after : Site asciiPlatform, ∃ outboxRow,
      Reaches Site.next Site.NoFailure (Site.start Db.empty 1) before ∧
        before.next (.commit 1 (sampleEnv 2)) = some committed ∧
        before.db.eventOutbox.length ≤ 0 ∧ committed.db.eventOutbox[0]? = some outboxRow ∧
        outboxRow.eventType = systemPowerplayUpdatedEvent ∧
        outboxRow.aggregateId = some (.ofNat 1000) ∧
        Reaches Site.next Site.NoFailure committed after ∧ 0 ∈ after.relay.removedRows ∧
        ¬ after.relay.PublishesOnceTo 0 (committed.powersOf (.ofNat 1000)) := by
  obtain ⟨before, committed, after, outboxRow, run, commits, inserted, stored, type, about, later,
    removed, powerId, mapped, missed⟩ := sampleTakeover_run
  refine ⟨before, committed, after, outboxRow, run, commits, inserted, stored, type, about, later,
    removed, fun told => ?_⟩
  obtain ⟨target, member, channel⟩ := told.all removed powerId mapped
  exact missed target member channel

end EliteHubVault
