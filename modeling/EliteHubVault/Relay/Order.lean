import EliteHubVault.Relay.NoLoss

/-!
# The order in which the rows of a system are published

The relay sorts by `createdAt`, which is the start time of the transaction that inserted a
row. Rows of one transaction have equal times, and a transaction that started earlier can
commit later, so the order of the times is not the order of the rows.

A run keeps the order when every batch takes the rows of the system that wait in the order
of their insertion (`FetchesInOrder`). When batches fail, two more things must hold. A
batch that fails is no longer done with its rows, so no other loop may hold a later row by
then. And a row that comes back may have been passed by later rows; what is published for it
again goes where it went before, unless the powers of the system have changed.
-/

set_option autoImplicit false
set_option linter.unusedSectionVars false

namespace EliteHubVault

open Library

variable {K : Type}

/-! ## The property -/

/-- The row is about this system. -/
def IsOf (outbox : List (OutboxRow K)) (systemId : Uuid) (row : ℕ) : Prop :=
  (outbox[row]?.bind fun row => row.aggregateId) = some systemId

instance (outbox : List (OutboxRow K)) (systemId : Uuid) (row : ℕ) :
    Decidable (IsOf outbox systemId row) := inferInstanceAs (Decidable (_ = _))

namespace Relay

/-- The row of every publication, in the order of the publications. -/
def publishedRows (relay : Relay K) : List ℕ := relay.published.map Publication.row

/-- The row and the channel of every publication. -/
def sent (relay : Relay K) : List (ℕ × String) :=
  relay.published.map fun publication => (publication.row, publication.target.channel)

/-- The publications about a system, without those that repeat a row on a channel. -/
def firstSent (outbox : List (OutboxRow K)) (systemId : Uuid) (relay : Relay K) :
    List (ℕ × String) :=
  distinct (relay.sent.filter fun message => IsOf outbox systemId message.1)

/-- The rows about a system are published in the order in which they were inserted: all the
targets of a row before any target of a later one. -/
def PublishesInOrder (outbox : List (OutboxRow K)) (systemId : Uuid) (relay : Relay K) : Prop :=
  (relay.firstSent outbox systemId).Pairwise fun message later => message.1 ≤ later.1

/-! ## The condition on a run -/

/-- A later row about the system has been published. -/
def Passed (outbox : List (OutboxRow K)) (systemId : Uuid) (relay : Relay K) (row : ℕ) : Prop :=
  ∃ later ∈ relay.publishedRows, IsOf outbox systemId later ∧ row < later

/-- The rows that open batches are done with. -/
def handledRows (relay : Relay K) : List ℕ :=
  relay.batches.entries.flatMap fun entry => entry.2.handledRows

/-- A row about the system that has not been removed, that no open batch is done with and
that no later row has passed. -/
def Waiting (outbox : List (OutboxRow K)) (systemId : Uuid) (relay : Relay K) (row : ℕ) : Prop :=
  IsOf outbox systemId row ∧ row ∉ relay.removedRows ∧ row ∉ relay.handledRows ∧
    ¬ relay.Passed outbox systemId row

/-- The targets of a row, with the powers that its system has now. -/
def targetsOf (outbox : List (OutboxRow K)) (powers : List SystemPowerplayPowerRow) (row : ℕ) :
    List (PublishTarget K) :=
  (outbox[row]?.bind fun outboxRow => (prepareRowForPublishing powers outboxRow).toOption).elim []
    RowHandlingResult.targets

/-- Before each waiting row of a fetch come all the earlier rows that wait. -/
def FetchesInOrder (outbox : List (OutboxRow K)) (systemId : Uuid) (relay : Relay K)
    (rows : List ℕ) : Prop :=
  ∀ row ∈ rows, relay.Waiting outbox systemId row →
    ∀ earlier < row, relay.Waiting outbox systemId earlier → rows.idxOf earlier < rows.idxOf row

/-- The targets of the next row of a batch are old ones when a later row has passed it. -/
def RepeatsTargets (outbox : List (OutboxRow K)) (powers : List SystemPowerplayPowerRow)
    (systemId : Uuid) (relay : Relay K) (batch : Batch K) : Prop :=
  ∀ row ∈ batch.todo.head?, IsOf outbox systemId row → relay.Passed outbox systemId row →
    ∀ target ∈ targetsOf outbox powers row, (row, target.channel) ∈ relay.sent

/-- No other loop has locked a row that is later than one the batch is done with, unless that
one has been passed. -/
def NoneAhead (outbox : List (OutboxRow K)) (systemId : Uuid) (relay : Relay K)
    (batch : Batch K) : Prop :=
  ∀ row ∈ batch.handledRows, IsOf outbox systemId row → ¬ relay.Passed outbox systemId row →
    ∀ later ∈ relay.locked, IsOf outbox systemId later → row < later → later ∈ batch.rows

/-- The step lets no row about the system pass an earlier one that is still to be published. -/
def KeepsOrder (outbox : List (OutboxRow K)) (powers : List SystemPowerplayPowerRow)
    (systemId : Uuid) (relay : Relay K) : RelayAction → Prop
  | .fetchBatch _ rows => relay.FetchesInOrder outbox systemId rows
  | .prepareRow loop =>
      ∀ batch ∈ relay.batches.get loop, relay.RepeatsTargets outbox powers systemId batch
  | .fail loop => ∀ batch ∈ relay.batches.get loop, relay.NoneAhead outbox systemId batch
  | _ => True

/-- The step fetches in order and does not fail. -/
def FetchesOnly (outbox : List (OutboxRow K)) (systemId : Uuid) (relay : Relay K) :
    RelayAction → Prop
  | .fetchBatch _ rows => relay.FetchesInOrder outbox systemId rows
  | .fail _ => False
  | _ => True

section Decidability

variable (outbox : List (OutboxRow K)) (powers : List SystemPowerplayPowerRow) (systemId : Uuid)
  (relay : Relay K)

instance (row : ℕ) : Decidable (relay.Passed outbox systemId row) :=
  inferInstanceAs (Decidable (∃ later ∈ relay.publishedRows, _ ∧ _))

instance (row : ℕ) : Decidable (relay.Waiting outbox systemId row) :=
  inferInstanceAs (Decidable (_ ∧ _))

instance (rows : List ℕ) : Decidable (relay.FetchesInOrder outbox systemId rows) :=
  inferInstanceAs (Decidable (∀ row ∈ rows, _ → ∀ earlier < row, _ → _ < _))

instance (batch : Batch K) : Decidable (relay.RepeatsTargets outbox powers systemId batch) :=
  inferInstanceAs (Decidable (∀ row ∈ batch.todo.head?, _ → _ →
    ∀ target ∈ targetsOf outbox powers row, _ ∈ relay.sent))

instance (batch : Batch K) : Decidable (relay.NoneAhead outbox systemId batch) :=
  inferInstanceAs (Decidable (∀ row ∈ batch.handledRows, _ → _ →
    ∀ later ∈ relay.locked, _ → _ → later ∈ batch.rows))

instance : (action : RelayAction) →
    Decidable (relay.KeepsOrder outbox powers systemId action)
  | .fetchBatch _ rows => inferInstanceAs (Decidable (relay.FetchesInOrder outbox systemId rows))
  | .prepareRow loop => inferInstanceAs (Decidable
      (∀ batch ∈ relay.batches.get loop, relay.RepeatsTargets outbox powers systemId batch))
  | .fail loop => inferInstanceAs (Decidable
      (∀ batch ∈ relay.batches.get loop, relay.NoneAhead outbox systemId batch))
  | .publish _ => .isTrue trivial
  | .deleteOutboxRow _ => .isTrue trivial
  | .commit _ => .isTrue trivial

end Decidability

/-! ## Small facts -/

section Facts

variable {outbox : List (OutboxRow K)} {systemId : Uuid} {relay : Relay K}

theorem mem_handledRows_iff {row : ℕ} : row ∈ relay.handledRows ↔
    ∃ loop batch, relay.batches.get loop = some batch ∧ row ∈ batch.handledRows := by
  constructor
  · intro member
    obtain ⟨⟨loop, batch⟩, entry, inside⟩ := List.mem_flatMap.mp member
    exact ⟨loop, batch, OrderedMap.get_eq_some_iff.mpr entry, inside⟩
  · rintro ⟨loop, batch, found, inside⟩
    exact List.mem_flatMap.mpr ⟨(loop, batch), OrderedMap.get_eq_some_iff.mp found, inside⟩

theorem mem_publishedRows_of_mem_sent {row : ℕ} {channel : String}
    (member : (row, channel) ∈ relay.sent) : row ∈ relay.publishedRows := by
  obtain ⟨publication, logged, same⟩ := List.mem_map.mp member
  exact List.mem_map.mpr ⟨publication, logged, congrArg Prod.fst same⟩

/-- What waits is about the system and inside the outbox. -/
theorem Waiting.inside {row : ℕ} (waiting : relay.Waiting outbox systemId row) :
    row < outbox.length := by
  by_contra outside
  have isOf := waiting.1
  rw [IsOf, List.getElem?_eq_none (Nat.le_of_not_lt outside)] at isOf
  cases isOf

/-- A row that was there is about the system that it was about. -/
theorem isOf_append {row : ℕ} (inside : row < outbox.length) (inserted : List (OutboxRow K)) :
    IsOf (outbox ++ inserted) systemId row ↔ IsOf outbox systemId row := by
  rw [IsOf, IsOf, List.getElem?_append_left inside]

theorem passed_append (sound : relay.Sound outbox) (inserted : List (OutboxRow K)) {row : ℕ} :
    relay.Passed (outbox ++ inserted) systemId row ↔ relay.Passed outbox systemId row := by
  have published : ∀ later ∈ relay.publishedRows, later < outbox.length := by
    intro later member
    obtain ⟨publication, logged, rfl⟩ := List.mem_map.mp member
    exact sound.inserted publication logged
  constructor
  · rintro ⟨later, member, isOf, before⟩
    exact ⟨later, member, (isOf_append (published later member) inserted).mp isOf, before⟩
  · rintro ⟨later, member, isOf, before⟩
    exact ⟨later, member, (isOf_append (published later member) inserted).mpr isOf, before⟩

theorem waiting_append (sound : relay.Sound outbox) (inserted : List (OutboxRow K)) {row : ℕ}
    (inside : row < outbox.length) :
    relay.Waiting (outbox ++ inserted) systemId row ↔ relay.Waiting outbox systemId row := by
  rw [Waiting, Waiting, isOf_append inside, passed_append sound]

/-- A log that grows passes more rows. -/
theorem Passed.mono {relay' : Relay K} {row : ℕ} (passed : relay.Passed outbox systemId row)
    (grows : relay.publishedRows ⊆ relay'.publishedRows) : relay'.Passed outbox systemId row := by
  obtain ⟨later, member, isOf, before⟩ := passed
  exact ⟨later, grows member, isOf, before⟩

/-- A row waits no longer than it is kept, not handled and not passed. -/
theorem Waiting.of_later {relay' : Relay K} {row : ℕ} (waiting : relay'.Waiting outbox systemId row)
    (removed : relay.removedRows ⊆ relay'.removedRows ++ relay'.handledRows)
    (handled : relay.handledRows ⊆ relay'.removedRows ++ relay'.handledRows)
    (published : relay.publishedRows ⊆ relay'.publishedRows) :
    relay.Waiting outbox systemId row := by
  obtain ⟨isOf, kept, open_, notPassed⟩ := waiting
  have neither : row ∉ relay'.removedRows ++ relay'.handledRows := by
    rw [List.mem_append, not_or]
    exact ⟨kept, open_⟩
  exact ⟨isOf, fun member => neither (removed member), fun member => neither (handled member),
    fun passed => notPassed (passed.mono published)⟩

/-- A row that a batch has yet to handle is kept, and no open batch is done with it. -/
theorem Sound.todo {loop : ℕ} {batch : Batch K} (sound : relay.Sound outbox)
    (found : relay.batches.get loop = some batch) {row : ℕ} (member : row ∈ batch.todo) :
    row ∉ relay.removedRows ∧ row ∉ relay.handledRows := by
  obtain ⟨once, fresh, -⟩ := sound.rows loop batch found
  have inRows : row ∈ batch.rows := List.mem_append_right _ member
  refine ⟨fresh inRows, fun handled => ?_⟩
  obtain ⟨other, otherBatch, foundOther, inOther⟩ := mem_handledRows_iff.mp handled
  by_cases same : other = loop
  · subst same
    cases found.symm.trans foundOther
    exact (List.nodup_append.mp once).2.2 _ inOther _ member rfl
  · exact sound.apart loop other batch otherBatch (Ne.symm same) found foundOther inRows
      (List.mem_append_left _ inOther)

end Facts

/-! ## The invariant -/

/-- A batch has every waiting row that is before one of its waiting rows, and has it earlier. -/
def HoldsInOrder (outbox : List (OutboxRow K)) (systemId : Uuid) (relay : Relay K) : Prop :=
  ∀ loop batch, relay.batches.get loop = some batch →
    ∀ front row back, batch.todo = front ++ row :: back → relay.Waiting outbox systemId row →
      ∀ earlier < row, relay.Waiting outbox systemId earlier → earlier ∈ front

/-- **The invariant.** What a batch has still to publish for a row that was passed has been
published before. -/
structure InOrder (outbox : List (OutboxRow K)) (systemId : Uuid) (relay : Relay K) : Prop where
  sorted : relay.PublishesInOrder outbox systemId
  holds : relay.HoldsInOrder outbox systemId
  prepared : ∀ loop todo handling remaining handled,
    relay.batches.get loop = some ⟨todo, .prepared handling remaining, handled⟩ →
      IsOf outbox systemId handling.row → relay.Passed outbox systemId handling.row →
        ∀ target ∈ remaining, (handling.row, target.channel) ∈ relay.sent

namespace HoldsInOrder

variable {outbox : List (OutboxRow K)} {systemId : Uuid} {relay relay' : Relay K}

theorem append (holds : relay.HoldsInOrder outbox systemId) (sound : relay.Sound outbox)
    (inserted : List (OutboxRow K)) : relay.HoldsInOrder (outbox ++ inserted) systemId := by
  intro loop batch found front row back split waiting earlier before earlierWaiting
  obtain ⟨-, -, inside⟩ := sound.rows loop batch found
  have rowInside : row < outbox.length :=
    inside row (List.mem_append_right _ (by rw [split]; simp))
  exact holds loop batch found front row back split ((waiting_append sound _ rowInside).mp waiting)
    earlier before ((waiting_append sound _ (before.trans rowInside)).mp earlierWaiting)

/-- Loops that only get on with their rows keep the order while fewer rows wait. -/
theorem of_waits (holds : relay.HoldsInOrder outbox systemId)
    (waits : ∀ row, relay'.Waiting outbox systemId row → relay.Waiting outbox systemId row)
    (tails : ∀ loop batch', relay'.batches.get loop = some batch' →
      ∃ batch gone, relay.batches.get loop = some batch ∧ batch.todo = gone ++ batch'.todo ∧
        ∀ row ∈ gone, ¬ relay'.Waiting outbox systemId row) :
    relay'.HoldsInOrder outbox systemId := by
  intro loop batch' found front row back split waiting earlier before earlierWaiting
  obtain ⟨batch, gone, wasFound, wasTodo, noneWaits⟩ := tails loop batch' found
  have wasSplit : batch.todo = (gone ++ front) ++ row :: back := by
    rw [wasTodo, split, List.append_assoc]
  have inFront := holds loop batch wasFound (gone ++ front) row back wasSplit (waits row waiting)
    earlier before (waits earlier earlierWaiting)
  exact (List.mem_append.mp inFront).resolve_left fun inGone =>
    noneWaits earlier inGone earlierWaiting

/-- A batch that takes the waiting rows in order. -/
theorem fetchBatch (holds : relay.HoldsInOrder outbox systemId) {loop : ℕ} {rows : List ℕ}
    (waits : ∀ row, (relay.setBatch loop ⟨rows, .fetched, []⟩).Waiting outbox systemId row →
      relay.Waiting outbox systemId row)
    (keeps : relay.FetchesInOrder outbox systemId rows) (once : rows.Nodup) :
    (relay.setBatch loop ⟨rows, .fetched, []⟩).HoldsInOrder outbox systemId := by
  intro other batch found front row back split waiting earlier before earlierWaiting
  rw [setBatch, OrderedMap.get_set] at found
  split at found
  · cases found
    obtain rfl : rows = front ++ row :: back := split
    have later := keeps row (by simp) (waits row waiting) earlier before
      (waits earlier earlierWaiting)
    have notFront : row ∉ front := fun member =>
      (List.nodup_append.mp once).2.2 row member row List.mem_cons_self rfl
    rw [List.idxOf_append_of_notMem notFront, List.idxOf_cons_self, Nat.add_zero] at later
    by_contra outside
    rw [List.idxOf_append_of_notMem outside] at later
    omega
  · exact holds other batch found front row back split (waits row waiting) earlier before
      (waits earlier earlierWaiting)

/-- When the next row of a batch waits, no earlier row waits. -/
theorem next (holds : relay.HoldsInOrder outbox systemId) {loop row : ℕ} {batch : Batch K}
    {rest : List ℕ} (found : relay.batches.get loop = some batch) (todo : batch.todo = row :: rest)
    (waiting : relay.Waiting outbox systemId row) {earlier : ℕ} (before : earlier < row) :
    ¬ relay.Waiting outbox systemId earlier := by
  intro earlierWaiting
  have inFront := holds loop batch found [] row rest todo waiting earlier before earlierWaiting
  cases inFront

end HoldsInOrder

section Steps

theorem get_setBatch_eq_some {relay : Relay K} {loop other : ℕ} {after batch : Batch K} :
    (relay.setBatch loop after).batches.get other = some batch ↔
      other = loop ∧ after = batch ∨ other ≠ loop ∧ relay.batches.get other = some batch := by
  rw [setBatch, OrderedMap.get_set]
  split
  · rename_i same
    simp [same]
  · rename_i different
    simp [different]

variable {outbox : List (OutboxRow K)} {systemId : Uuid} {relay : Relay K}

/-- A loop that gets on with its batch keeps the order, if no row that it leaves behind waits. -/
theorem HoldsInOrder.setBatch {relay' : Relay K} (holds : relay.HoldsInOrder outbox systemId)
    {loop : ℕ} {before after : Batch K} (gone : List ℕ)
    (found : relay.batches.get loop = some before)
    (same : relay'.batches = (relay.setBatch loop after).batches)
    (waits : ∀ row, relay'.Waiting outbox systemId row → relay.Waiting outbox systemId row)
    (todo : before.todo = gone ++ after.todo)
    (noneWaits : ∀ row ∈ gone, ¬ relay'.Waiting outbox systemId row) :
    relay'.HoldsInOrder outbox systemId := by
  refine holds.of_waits waits fun other batch foundOther => ?_
  rw [same] at foundOther
  obtain ⟨rfl, rfl⟩ | ⟨-, kept⟩ := get_setBatch_eq_some.mp foundOther
  · exact ⟨before, gone, found, todo, noneWaits⟩
  · exact ⟨batch, [], kept, rfl, fun _ member => nomatch member⟩

theorem handledRows_subset_setBatch {loop : ℕ} {before after : Batch K}
    (found : relay.batches.get loop = some before)
    (grows : before.handledRows ⊆ after.handledRows) :
    relay.handledRows ⊆ (relay.setBatch loop after).handledRows := by
  intro row member
  obtain ⟨other, batch, foundOther, handled⟩ := mem_handledRows_iff.mp member
  by_cases same : other = loop
  · subst same
    cases found.symm.trans foundOther
    exact mem_handledRows_iff.mpr
      ⟨other, after, OrderedMap.get_set_self _ _ _, grows handled⟩
  · exact mem_handledRows_iff.mpr
      ⟨other, batch, (OrderedMap.get_set_of_ne _ _ same).trans foundOther, handled⟩

/-- A fetch starts with no row handled. -/
theorem handledRows_subset_fetchBatch {loop : ℕ} {rows : List ℕ}
    (idle : relay.batches.get loop = none) :
    relay.handledRows ⊆ (relay.setBatch loop ⟨rows, .fetched, []⟩).handledRows := by
  intro row member
  obtain ⟨other, batch, found, handled⟩ := mem_handledRows_iff.mp member
  have different : other ≠ loop := by
    rintro rfl
    cases idle.symm.trans found
  exact mem_handledRows_iff.mpr
    ⟨other, batch, (OrderedMap.get_set_of_ne _ _ different).trans found, handled⟩

/-- A commit removes what its batch was done with. -/
theorem handledRows_subset_commit {loop : ℕ} {batch : Batch K}
    (found : relay.batches.get loop = some batch) :
    relay.handledRows ⊆ (relay.removedRows ++ batch.handledRows) ++
      Relay.handledRows { relay with batches := relay.batches.delete loop } := by
  intro row member
  obtain ⟨other, otherBatch, foundOther, handled⟩ := mem_handledRows_iff.mp member
  by_cases same : other = loop
  · subst same
    cases found.symm.trans foundOther
    exact List.mem_append_left _ (List.mem_append_right _ handled)
  · exact List.mem_append_right _ (mem_handledRows_iff.mpr
      ⟨other, otherBatch, (OrderedMap.get_delete_of_ne _ same).trans foundOther, handled⟩)

/-- A loop that gets on with its batch lets no row wait again. -/
theorem waits_setBatch {loop row : ℕ} {before after : Batch K}
    (found : relay.batches.get loop = some before)
    (waiting : (relay.setBatch loop after).Waiting outbox systemId row)
    (grows : before.handledRows ⊆ after.handledRows) : relay.Waiting outbox systemId row :=
  waiting.of_later (List.subset_append_left _ _)
    (List.subset_append_of_subset_right _ (handledRows_subset_setBatch found grows))
    (List.Subset.refl _)

/-- A fetch lets no row wait again. -/
theorem waits_fetchBatch {loop row : ℕ} {rows : List ℕ} (idle : relay.batches.get loop = none)
    (waiting : (relay.setBatch loop ⟨rows, .fetched, []⟩).Waiting outbox systemId row) :
    relay.Waiting outbox systemId row :=
  waiting.of_later (List.subset_append_left _ _)
    (List.subset_append_of_subset_right _ (handledRows_subset_fetchBatch idle))
    (List.Subset.refl _)

/-- A commit lets no row wait again. -/
theorem waits_commit {loop row : ℕ} {batch : Batch K}
    (found : relay.batches.get loop = some batch)
    (waiting : Relay.Waiting outbox systemId { relay with
      batches := relay.batches.delete loop
      removed := relay.removed ++ batch.handled.map fun handled =>
        { handled with publishedBefore := relay.published.length } } row) :
    relay.Waiting outbox systemId row := by
  refine waiting.of_later ?_ ?_ (List.Subset.refl _)
  · rw [removedRows_commit, List.append_assoc]
    exact List.subset_append_left _ _
  · rw [removedRows_commit]
    exact handledRows_subset_commit found

/-- After a failure a row waits again only if the batch was done with it. -/
theorem waits_fail {loop : ℕ} {batch : Batch K} (found : relay.batches.get loop = some batch)
    {row : ℕ} (waiting : Relay.Waiting outbox systemId
      { relay with batches := relay.batches.delete loop } row) :
    row ∈ batch.handledRows ∨ relay.Waiting outbox systemId row := by
  by_cases handled : row ∈ batch.handledRows
  · exact .inl handled
  · obtain ⟨isOf, kept, open_, notPassed⟩ := waiting
    refine .inr ⟨isOf, kept, fun member => open_ ?_, notPassed⟩
    obtain ⟨other, otherBatch, foundOther, inOther⟩ := mem_handledRows_iff.mp member
    have different : other ≠ loop := by
      rintro rfl
      cases found.symm.trans foundOther
      exact handled inOther
    exact mem_handledRows_iff.mpr
      ⟨other, otherBatch, (OrderedMap.get_delete_of_ne _ different).trans foundOther, inOther⟩

/-- A publication of a row passes the rows before it. -/
theorem passed_publish {loop : ℕ} {batch : Batch K} {publication : Publication K} {row : ℕ} :
    Relay.Passed outbox systemId { relay.setBatch loop batch with
      published := relay.published ++ [publication] } row ↔
      relay.Passed outbox systemId row ∨
        IsOf outbox systemId publication.row ∧ row < publication.row := by
  simp only [Passed, publishedRows, List.map_append, List.map_singleton, List.mem_append,
    List.mem_singleton]
  constructor
  · rintro ⟨later, old | rfl, isOf, before⟩
    · exact .inl ⟨later, old, isOf, before⟩
    · exact .inr ⟨isOf, before⟩
  · rintro (⟨later, old, isOf, before⟩ | ⟨isOf, before⟩)
    · exact ⟨later, .inl old, isOf, before⟩
    · exact ⟨publication.row, .inr rfl, isOf, before⟩

/-- A publication may follow those that are not of a later row. -/
theorem publishesInOrder_publish {loop : ℕ} {batch : Batch K} {publication : Publication K}
    (sorted : relay.PublishesInOrder outbox systemId)
    (follows : (publication.row, publication.target.channel) ∉ relay.sent →
      IsOf outbox systemId publication.row → ¬ relay.Passed outbox systemId publication.row) :
    Relay.PublishesInOrder outbox systemId { relay.setBatch loop batch with
      published := relay.published ++ [publication] } := by
  have grown : Relay.sent { relay.setBatch loop batch with
      published := relay.published ++ [publication] } =
        relay.sent ++ [(publication.row, publication.target.channel)] := by
    simp [sent]
  rw [PublishesInOrder, firstSent, grown, List.filter_append]
  by_cases isOf : IsOf outbox systemId publication.row
  · rw [List.filter_singleton, decide_eq_true isOf, cond_true, distinct_append_singleton]
    unfold addOnce
    split
    · exact sorted
    · rename_i fresh
      rw [mem_distinct, List.mem_filter, not_and] at fresh
      have notPassed := follows (fun old => fresh old (decide_eq_true isOf)) isOf
      refine List.pairwise_append.mpr
        ⟨sorted, List.pairwise_singleton _ _, fun message member last inLast => ?_⟩
      obtain rfl := List.mem_singleton.mp inLast
      rw [mem_distinct, List.mem_filter] at member
      exact Nat.le_of_not_lt fun later => notPassed
        ⟨message.1, mem_publishedRows_of_mem_sent member.1, of_decide_eq_true member.2, later⟩
  · rw [List.filter_singleton, decide_eq_false isOf, cond_false, List.append_nil]
    exact sorted

end Steps

namespace InOrder

variable {outbox : List (OutboxRow K)} {systemId : Uuid} {relay : Relay K}

theorem empty : InOrder outbox systemId (.empty : Relay K) where
  sorted := List.Pairwise.nil
  holds _ _ found := nomatch found
  prepared _ _ _ _ _ found := nomatch found

theorem append (inOrder : InOrder outbox systemId relay) (sound : relay.Sound outbox)
    (inserted : List (OutboxRow K)) : InOrder (outbox ++ inserted) systemId relay where
  sorted := by
    have same : relay.firstSent (outbox ++ inserted) systemId =
        relay.firstSent outbox systemId := by
      unfold firstSent
      congr 1
      apply List.filter_congr
      intro message member
      obtain ⟨publication, logged, rfl⟩ := List.mem_map.mp member
      exact decide_eq_decide.mpr (isOf_append (sound.inserted publication logged) inserted)
    rw [PublishesInOrder, same]
    exact inOrder.sorted
  holds := inOrder.holds.append sound inserted
  prepared loop todo handling remaining handled found isOf passed := by
    obtain ⟨-, answers, -⟩ := (sound.batches loop _ found).prepared handling remaining rfl
    exact inOrder.prepared loop todo handling remaining handled found
      ((isOf_append answers.inside inserted).mp isOf) ((passed_append sound inserted).mp passed)

/-- A step that publishes nothing and prepares no row keeps the order if the batches do. -/
theorem of_kept {relay' : Relay K} (inOrder : InOrder outbox systemId relay)
    (holds : relay'.HoldsInOrder outbox systemId) (published : relay'.published = relay.published)
    (kept : ∀ loop todo handling remaining handled,
      relay'.batches.get loop = some ⟨todo, .prepared handling remaining, handled⟩ →
        relay.batches.get loop = some ⟨todo, .prepared handling remaining, handled⟩) :
    InOrder outbox systemId relay' where
  sorted := by
    rw [PublishesInOrder, firstSent, sent, published]
    exact inOrder.sorted
  holds := holds
  prepared loop todo handling remaining handled found isOf passed := by
    rw [Passed, publishedRows, published] at passed
    rw [sent, published]
    exact inOrder.prepared loop todo handling remaining handled
      (kept loop todo handling remaining handled found) isOf passed

/-- The row that a loop publishes is waiting, when it is about the system and not passed. -/
theorem waiting_of_next {loop row : ℕ} {batch : Batch K} {rest : List ℕ}
    (sound : relay.Sound outbox) (found : relay.batches.get loop = some batch)
    (todo : batch.todo = row :: rest) (isOf : IsOf outbox systemId row)
    (notPassed : ¬ relay.Passed outbox systemId row) : relay.Waiting outbox systemId row := by
  have member : row ∈ batch.todo := by
    rw [todo]
    exact List.mem_cons_self
  obtain ⟨kept, open_⟩ := sound.todo found member
  exact ⟨isOf, kept, open_, notPassed⟩

/-- **A publication keeps the order.** The row it is about is the next row of its batch; when
it is new to the channel, the row was not passed, so no earlier row waits. -/
theorem publish (inOrder : InOrder outbox systemId relay) (sound : relay.Sound outbox)
    {loop : ℕ} {todo : List ℕ} {handling : HandledRow K} {target : PublishTarget K}
    {remaining : List (PublishTarget K)} {handled : List (HandledRow K)}
    (found : relay.batches.get loop =
      some ⟨todo, .prepared handling (target :: remaining), handled⟩) :
    InOrder outbox systemId
      { relay.setBatch loop ⟨todo, .prepared handling remaining, handled⟩ with
        published := relay.published ++ [⟨handling.row, target⟩] } := by
  obtain ⟨first, -⟩ := (sound.batches loop _ found).prepared handling _ rfl
  obtain ⟨rest, rfl⟩ := List.head?_eq_some_iff.mp first
  have fresh : (handling.row, target.channel) ∉ relay.sent → IsOf outbox systemId handling.row →
      ¬ relay.Passed outbox systemId handling.row := by
    intro new isOf passed
    exact new (inOrder.prepared loop _ handling _ handled found isOf passed target
      List.mem_cons_self)
  have grown : relay.sent ⊆ Relay.sent
      { relay.setBatch loop ⟨handling.row :: rest, .prepared handling remaining, handled⟩ with
        published := relay.published ++ [⟨handling.row, target⟩] } := by
    simp [sent]
  refine ⟨publishesInOrder_publish inOrder.sorted fresh, ?_, ?_⟩
  · refine inOrder.holds.setBatch [] found rfl (fun row waiting => ?_) rfl fun _ member =>
      nomatch member
    refine waiting.of_later (List.subset_append_left _ _)
      (List.subset_append_of_subset_right _ ?_) ?_
    · exact handledRows_subset_setBatch found (List.Subset.refl _)
    · simp [publishedRows]
  · intro other otherTodo otherHandling otherRemaining otherHandled foundOther isOf passed
      otherTarget member
    obtain ⟨rfl, same⟩ | ⟨-, kept⟩ := get_setBatch_eq_some.mp foundOther
    · cases same
      obtain wasPassed | ⟨-, impossible⟩ := passed_publish.mp passed
      · exact grown (inOrder.prepared _ _ handling _ handled found isOf wasPassed otherTarget
          (List.mem_cons_of_mem _ member))
      · exact absurd impossible (lt_irrefl _)
    · refine grown (inOrder.prepared other otherTodo otherHandling otherRemaining otherHandled kept
        isOf ?_ otherTarget member)
      obtain wasPassed | ⟨rowIsOf, before⟩ := passed_publish.mp passed
      · exact wasPassed
      · -- The other loop's row would wait before the one that is published.
        by_contra notPassed
        obtain ⟨otherFirst, -⟩ := (sound.batches other _ kept).prepared otherHandling _ rfl
        obtain ⟨otherRest, otherTodo_eq⟩ := List.head?_eq_some_iff.mp otherFirst
        have otherWaiting := waiting_of_next sound kept otherTodo_eq isOf notPassed
        have rowNotPassed : ¬ relay.Passed outbox systemId handling.row := by
          refine fresh (fun old => notPassed ?_) rowIsOf
          exact ⟨handling.row, mem_publishedRows_of_mem_sent old, rowIsOf, before⟩
        exact inOrder.holds.next found rfl (waiting_of_next sound found rfl rowIsOf rowNotPassed)
          before otherWaiting

/-- **A step that meets the condition keeps the order.** -/
theorem step {powers : List SystemPowerplayPowerRow} {action : RelayAction} {relay' : Relay K}
    (inOrder : InOrder outbox systemId relay) (sound : relay.Sound outbox)
    (keeps : relay.KeepsOrder outbox powers systemId action)
    (taken : relay.Step outbox powers action relay') : InOrder outbox systemId relay' := by
  cases taken with
  | @fetchBatch loop rows idle fetch =>
      refine inOrder.of_kept (inOrder.holds.fetchBatch (fun row => waits_fetchBatch idle) keeps
        fetch.1) rfl ?_
      intro other todo handling remaining handled found
      obtain ⟨-, same⟩ | ⟨-, kept⟩ := get_setBatch_eq_some.mp found
      · cases same
      · exact kept
  | @prepareRow loop row rest handled outboxRow result found stored prepared =>
      refine ⟨inOrder.sorted, inOrder.holds.setBatch [] found rfl
        (fun row waiting => waits_setBatch found waiting (List.Subset.refl _)) rfl
          (fun _ member => nomatch member), ?_⟩
      intro other todo handling remaining otherHandled foundOther isOf passed target member
      obtain ⟨rfl, same⟩ | ⟨-, kept⟩ := get_setBatch_eq_some.mp foundOther
      · cases same
        refine keeps _ found row rfl isOf passed target ?_
        rw [targetsOf, stored, Option.bind_some, prepared]
        exact member
      · exact inOrder.prepared other todo handling remaining otherHandled kept isOf passed target
          member
  | publish found => exact inOrder.publish sound found
  | @deleteOutboxRow loop row rest handling handled found =>
      obtain ⟨first, -⟩ := (sound.batches loop _ found).prepared handling _ rfl
      cases first
      refine inOrder.of_kept (inOrder.holds.setBatch [handling.row] found rfl
        (fun row waiting => waits_setBatch found waiting (by simp [Batch.handledRows])) rfl ?_) rfl ?_
      · intro row member waiting
        refine waiting.2.2.1 (mem_handledRows_iff.mpr
          ⟨loop, _, get_setBatch_eq_some.mpr (.inl ⟨rfl, rfl⟩), ?_⟩)
        rw [List.mem_singleton.mp member]
        simp [Batch.handledRows]
      · intro other todo otherHandling remaining otherHandled foundOther
        obtain ⟨-, same⟩ | ⟨-, kept⟩ := get_setBatch_eq_some.mp foundOther
        · cases same
        · exact kept
  | @commit loop handled found =>
      refine inOrder.of_kept (inOrder.holds.of_waits (fun row => waits_commit found)
        fun other batch' foundOther => ?_) rfl fun other _ _ _ _ foundOther =>
          (OrderedMap.get_of_get_delete foundOther).2
      exact ⟨batch', [], (OrderedMap.get_of_get_delete foundOther).2, rfl,
        fun _ member => nomatch member⟩
  | @fail loop batch found =>
      refine inOrder.of_kept ?_ rfl fun other _ _ _ _ foundOther =>
        (OrderedMap.get_of_get_delete foundOther).2
      intro other otherBatch foundOther front row back split waiting earlier before earlierWaiting
      obtain ⟨different, kept⟩ := OrderedMap.get_of_get_delete foundOther
      have inTodo : row ∈ otherBatch.todo := by rw [split]; simp
      have apart : row ∉ batch.rows := fun here =>
        sound.apart loop other batch otherBatch (Ne.symm different) found kept here
          (List.mem_append_right _ inTodo)
      have rowWaited : relay.Waiting outbox systemId row :=
        (waits_fail found waiting).resolve_left fun handled =>
          apart (List.mem_append_left _ handled)
      obtain handled | earlierWaited := waits_fail found earlierWaiting
      · have locked : row ∈ relay.locked :=
          mem_locked_iff.mpr ⟨other, otherBatch, kept, List.mem_append_right _ inTodo⟩
        exact absurd (keeps batch found earlier handled earlierWaiting.1 earlierWaiting.2.2.2 row
          locked waiting.1 before) apart
      · exact inOrder.holds other otherBatch kept front row back split rowWaited earlier before
          earlierWaited

end InOrder

/-! ## Runs without failures -/

/-- Only rows that are removed or that an open batch is done with have been passed. -/
def NonePassed (outbox : List (OutboxRow K)) (systemId : Uuid) (relay : Relay K) : Prop :=
  ∀ row, IsOf outbox systemId row → relay.Passed outbox systemId row →
    row ∈ relay.removedRows ++ relay.handledRows

namespace NonePassed

variable {outbox : List (OutboxRow K)} {systemId : Uuid} {relay relay' : Relay K}

theorem append (none : relay.NonePassed outbox systemId) (sound : relay.Sound outbox)
    (inserted : List (OutboxRow K)) : relay.NonePassed (outbox ++ inserted) systemId := by
  intro row isOf passed
  have wasPassed := (passed_append sound inserted).mp passed
  obtain ⟨later, member, -, before⟩ := wasPassed
  obtain ⟨publication, logged, rfl⟩ := List.mem_map.mp member
  have inside : row < outbox.length := before.trans (sound.inserted publication logged)
  exact none row ((isOf_append inside inserted).mp isOf) ((passed_append sound inserted).mp passed)

theorem mono (none : relay.NonePassed outbox systemId)
    (removed : relay.removedRows ⊆ relay'.removedRows ++ relay'.handledRows)
    (handled : relay.handledRows ⊆ relay'.removedRows ++ relay'.handledRows)
    (published : relay'.publishedRows ⊆ relay.publishedRows) :
    relay'.NonePassed outbox systemId := by
  intro row isOf passed
  exact (List.mem_append.mp (none row isOf (passed.mono published))).elim
    (fun member => removed member) fun member => handled member

/-- The rows that a batch has still to publish were not passed. -/
theorem not_passed (none : relay.NonePassed outbox systemId) (sound : relay.Sound outbox)
    {loop : ℕ} {batch : Batch K} (found : relay.batches.get loop = some batch) {row : ℕ}
    (member : row ∈ batch.todo) (isOf : IsOf outbox systemId row) :
    ¬ relay.Passed outbox systemId row := by
  intro passed
  obtain ⟨kept, open_⟩ := sound.todo found member
  exact (List.mem_append.mp (none row isOf passed)).elim kept open_

/-- A step that fetches in order and does not fail meets the condition. -/
theorem keepsOrder {powers : List SystemPowerplayPowerRow} {action : RelayAction}
    (none : relay.NonePassed outbox systemId) (sound : relay.Sound outbox)
    (fetches : relay.FetchesOnly outbox systemId action) :
    relay.KeepsOrder outbox powers systemId action := by
  cases action with
  | fetchBatch loop rows => exact fetches
  | prepareRow loop =>
      intro batch found row next isOf passed
      exact absurd passed (none.not_passed sound found (List.mem_of_mem_head? next) isOf)
  | fail loop => exact fetches.elim
  | publish loop => trivial
  | deleteOutboxRow loop => trivial
  | commit loop => trivial

/-- A publication passes no row that waits. -/
theorem step {powers : List SystemPowerplayPowerRow} {action : RelayAction}
    (none : relay.NonePassed outbox systemId) (inOrder : relay.InOrder outbox systemId)
    (sound : relay.Sound outbox) (fetches : relay.FetchesOnly outbox systemId action)
    (taken : relay.Step outbox powers action relay') : relay'.NonePassed outbox systemId := by
  cases taken with
  | fetchBatch idle fetch =>
      exact none.mono (List.subset_append_left _ _)
        (List.subset_append_of_subset_right _ (handledRows_subset_fetchBatch idle))
        (List.Subset.refl _)
  | prepareRow found stored prepared =>
      refine none.mono (List.subset_append_left _ _)
        (List.subset_append_of_subset_right _ (handledRows_subset_setBatch found ?_))
        (List.Subset.refl _)
      exact List.Subset.refl _
  | @publish loop todo handling target remaining handled found =>
      obtain ⟨first, -⟩ := (sound.batches loop _ found).prepared handling _ rfl
      obtain ⟨rest, rfl⟩ := List.head?_eq_some_iff.mp first
      intro row isOf passed
      by_contra neither
      have waits : row ∉ relay.removedRows ++ relay.handledRows := by
        intro member
        refine neither (List.mem_append.mpr ((List.mem_append.mp member).imp_right fun open_ => ?_))
        refine handledRows_subset_setBatch found ?_ open_
        exact List.Subset.refl _
      have notPassed : ¬ relay.Passed outbox systemId row := fun wasPassed =>
        waits (none row isOf wasPassed)
      obtain ⟨rowIsOf, before⟩ := (passed_publish.mp passed).resolve_left notPassed
      rw [List.mem_append, not_or] at waits
      refine inOrder.holds.next found rfl (InOrder.waiting_of_next sound found rfl rowIsOf ?_) before
        ⟨isOf, waits.1, waits.2, notPassed⟩
      exact none.not_passed sound found List.mem_cons_self rowIsOf
  | deleteOutboxRow found =>
      refine none.mono (List.subset_append_left _ _)
        (List.subset_append_of_subset_right _ (handledRows_subset_setBatch found ?_))
        (List.Subset.refl _)
      simp [Batch.handledRows]
  | commit found =>
      refine none.mono ?_ ?_ (List.Subset.refl _)
      · rw [removedRows_commit, List.append_assoc]
        exact List.subset_append_left _ _
      · rw [removedRows_commit]
        exact handledRows_subset_commit found
  | fail found => exact fetches.elim

end NonePassed

end Relay

end EliteHubVault
