import EliteHubVault.Relay.Loop
import EliteHubVault.Relay.NoLoss

/-!
# The steps of a batch, by what is left

A batch is fetched, advances, and is committed or rolled back. Each step that advances it leaves
less to do (`Batch.rank`) and keeps its rows. A sound batch can always be advanced or committed
when its next row does not wedge (`exists_next`), and a batch can always be fetched
(`exists_isFetch`).
-/

set_option autoImplicit false

namespace EliteHubVault

open Library

variable {K : Type}

/-! ## What is left of a batch -/

def RowStage.rank : RowStage K → ℕ ×ₗ ℕ
  | .fetched => toLex (1, 0)
  | .prepared _ remaining => toLex (0, remaining.length)

/-- How much a batch has left: its rows, and what is left of the first one. -/
def Batch.rank (batch : Batch K) : ℕ ×ₗ ℕ ×ₗ ℕ := toLex (batch.todo.length, batch.stage.rank)

theorem Batch.rank_lt_of_stage {todo : List ℕ} {stage stage' : RowStage K}
    {handled : List (HandledRow K)} (less : stage'.rank < stage.rank) :
    Batch.rank ⟨todo, stage', handled⟩ < Batch.rank ⟨todo, stage, handled⟩ :=
  Prod.Lex.right _ less

/-! ## Kinds of steps -/

/-- The steps of a loop, by what they do with its batch. -/
inductive Relay.BatchStep (outbox : List (OutboxRow K)) (relay : Relay K) :
    RelayAction → Relay K → Prop where
  | fetches {loop : ℕ} {rows : List ℕ} : relay.batches.get loop = none →
      IsFetch outbox (relay.available outbox) rows →
      BatchStep outbox relay (.fetchBatch loop rows) (relay.setBatch loop ⟨rows, .fetched, []⟩)
  | advances {action : RelayAction} {loop : ℕ} {before after : Batch K} {relay' : Relay K} :
      EventOutboxRelay.stageOf action = (loop, .batch) →
      (∀ processedCount eventOutboxRelay,
        EventOutboxRelay.proceed processedCount eventOutboxRelay action = eventOutboxRelay) →
      relay.batches.get loop = some before → relay'.batches = relay.batches.set loop after →
      after.rank < before.rank → after.rows = before.rows →
      relay'.removed = relay.removed → BatchStep outbox relay action relay'
  | commits {loop : ℕ} {batch : Batch K} {relay' : Relay K} :
      relay.batches.get loop = some batch → relay'.batches = relay.batches.delete loop →
      relay'.removedRows = relay.removedRows ++ batch.rows →
      BatchStep outbox relay (.commit loop) relay'
  | fails {loop : ℕ} {batch : Batch K} {relay' : Relay K} :
      relay.batches.get loop = some batch → relay'.batches = relay.batches.delete loop →
      relay'.removed = relay.removed → BatchStep outbox relay (.fail loop) relay'

namespace Relay

variable {outbox : List (OutboxRow K)} {powers : List SystemPowerplayPowerRow}
  {relay relay' : Relay K} {action : RelayAction}

theorem batchStep_of_step (sound : relay.Sound outbox)
    (taken : relay.Step outbox powers action relay') : relay.BatchStep outbox action relay' := by
  cases taken with
  | fetchBatch idle fetch => exact .fetches idle fetch
  | prepareRow found stored prepared =>
      exact .advances rfl (fun _ _ => rfl) found rfl
        (Batch.rank_lt_of_stage (Prod.Lex.left _ _ Nat.zero_lt_one)) rfl rfl
  | publish found =>
      exact .advances rfl (fun _ _ => rfl) found rfl
        (Batch.rank_lt_of_stage (Prod.Lex.right _ (Nat.lt_succ_self _))) rfl rfl
  | @deleteOutboxRow loop row rest handling handled found =>
      refine .advances rfl (fun _ _ => rfl) found rfl (Prod.Lex.left _ _ (Nat.lt_succ_self _)) ?_
        rfl
      -- The row that was handled is the first one.
      obtain ⟨first, -, -⟩ := (sound.batches loop _ found).prepared handling [] rfl
      obtain rfl := Option.some_inj.mp first
      simp [Batch.rows, Batch.handledRows]
  | @commit loop handled found =>
      refine .commits found rfl ?_
      rw [removedRows_commit, Batch.rows, List.append_nil]
      rfl
  | fail found => exact .fails found rfl rfl

/-! ## A step is possible -/

/-- **A batch can be fetched**: the rows by their times, the first hundred of them. -/
theorem exists_isFetch (outbox : List (OutboxRow K)) {available : List ℕ}
    (nodup : available.Nodup) : ∃ rows, IsFetch outbox available rows := by
  let before : ℕ → ℕ → Prop := fun row later => createdAtOf outbox row ≤ createdAtOf outbox later
  have total : Std.Total before := ⟨fun row later => le_total _ _⟩
  have trans : IsTrans ℕ before := ⟨fun _ _ _ => le_trans⟩
  let sorted := available.insertionSort before
  have same : sorted.Perm available := List.perm_insertionSort before available
  have inOrder : sorted.Pairwise before := List.pairwise_insertionSort before available
  refine ⟨sorted.take batchSize, ?_, fun row member => ?_, ?_, ?_, ?_⟩
  · exact (same.nodup_iff.mpr nodup).sublist (List.take_sublist _ _)
  · exact same.mem_iff.mp (List.mem_of_mem_take member)
  · rw [List.length_take, same.length_eq]
  · exact inOrder.sublist (List.take_sublist _ _)
  · intro row member other inside outside
    have splits := inOrder
    rw [← List.take_append_drop batchSize sorted] at splits
    have later : other ∈ sorted.drop batchSize := by
      have found := same.mem_iff.mpr inside
      rw [← List.take_append_drop batchSize sorted] at found
      exact (List.mem_append.mp found).resolve_left outside
    exact (List.pairwise_append.mp splits).2.2 row member other later

/-- The commit of a batch goes with a deletion of each of its rows; before that, its next row can
be handled. -/
theorem exists_next (powers : List SystemPowerplayPowerRow) (sound : relay.Sound outbox)
    {loop : ℕ} {batch : Batch K}
    (found : relay.batches.get loop = some batch)
    (handled : ∀ row ∈ batch.rows, ∀ outboxRow, outbox[row]? = some outboxRow →
      ∃ result, prepareRowForPublishing powers outboxRow = .ok result) :
    ∃ action, action ≠ .fail loop ∧ EventOutboxRelay.stageOf action = (loop, .batch) ∧
      (relay.next outbox powers action).isSome := by
  obtain ⟨todo, stage, done⟩ := batch
  cases stage with
  | fetched =>
      cases todo with
      | nil =>
          refine ⟨.commit loop, by simp, rfl, ?_⟩
          simp [next, found]
      | cons row rest =>
          have listed : row ∈ Batch.rows ⟨row :: rest, .fetched, done⟩ := by
            simp [Batch.rows]
          have inside := (sound.rows loop _ found).2.2 row listed
          obtain ⟨result, prepared⟩ :=
            handled row listed outbox[row] (List.getElem?_eq_getElem inside)
          refine ⟨.prepareRow loop, by simp, rfl, ?_⟩
          simp [next, found, List.getElem?_eq_getElem inside, toOption_eq_some.mpr prepared]
  | prepared handling remaining =>
      cases remaining with
      | cons target remaining =>
          refine ⟨.publish loop, by simp, rfl, ?_⟩
          simp [next, found]
      | nil =>
          obtain ⟨first, -, -⟩ := (sound.batches loop _ found).prepared handling [] rfl
          cases todo with
          | nil => cases first
          | cons row rest =>
              refine ⟨.deleteOutboxRow loop, by simp, rfl, ?_⟩
              simp [next, found]

end Relay

end EliteHubVault
