import EliteHubVault.Library.OrderedMap
import EliteHubVault.Relay.Rows

/-!
# The relay loops and the outbox

Each relay loop runs one transaction at a time. It locks a batch of rows that no other loop
has locked, publishes or discards them one by one, deletes each in its transaction and
commits. Any step can fail; the transaction is rolled back then and its deletions with it,
but not what it has published.

`outbox` is the log of all rows that were ever inserted, in insertion order, and a row is
known by its position. The rows that committed batches have deleted are in `removed`.
-/

set_option autoImplicit false

namespace EliteHubVault

open Library

/-! ## State -/

section State

variable (K : Type)

/-- What a batch did with a row: the answer of `prepareRowForPublishing` to it, from the
rows of `systemPowerplayPowers` at that time. -/
structure HandledRow where
  row : ℕ
  powers : List SystemPowerplayPowerRow
  result : RowHandlingResult K

/-- How far `processRow` has come with the first row that is not deleted yet. -/
inductive RowStage where
  | fetched
  | prepared (handled : HandledRow K) (remaining : List (PublishTarget K))

/-- The open transaction of a loop: the rows that are left and the ones it has deleted. -/
structure Batch where
  todo : List ℕ
  stage : RowStage K
  handled : List (HandledRow K)

/-- A message for a row that Redis has accepted. -/
structure Publication where
  row : ℕ
  target : PublishTarget K

/-- A row that a committed batch has deleted, and how much had been published by then. -/
structure Removal extends HandledRow K where
  publishedBefore : ℕ

/-- The open transactions of the loops, all publications and all committed deletions. -/
structure Relay where
  batches : OrderedMap ℕ (Batch K)
  published : List (Publication K)
  removed : List (Removal K)

end State

variable {K : Type}

namespace Batch

/-- The rows that a transaction has deleted. -/
def handledRows (batch : Batch K) : List ℕ := batch.handled.map HandledRow.row

/-- The rows that a transaction has locked. -/
def rows (batch : Batch K) : List ℕ := batch.handledRows ++ batch.todo

end Batch

namespace Relay

def empty : Relay K := ⟨.empty, [], []⟩

/-- The rows that committed batches have deleted. -/
def removedRows (relay : Relay K) : List ℕ := relay.removed.map fun removal => removal.row

/-- The rows that some transaction has locked. -/
def locked (relay : Relay K) : List ℕ := relay.batches.entries.flatMap fun entry => entry.2.rows

/-- The rows that a query with `SKIP LOCKED` finds. -/
def available (outbox : List (OutboxRow K)) (relay : Relay K) : List ℕ :=
  (List.range outbox.length).filter fun row => row ∉ relay.removedRows ∧ row ∉ relay.locked

theorem mem_available {outbox : List (OutboxRow K)} {relay : Relay K} {row : ℕ} :
    row ∈ relay.available outbox ↔
      row < outbox.length ∧ row ∉ relay.removedRows ∧ row ∉ relay.locked := by
  simp [available]

theorem mem_locked_iff {relay : Relay K} {row : ℕ} :
    row ∈ relay.locked ↔ ∃ loop batch, relay.batches.get loop = some batch ∧ row ∈ batch.rows := by
  constructor
  · intro member
    obtain ⟨⟨loop, batch⟩, entry, inside⟩ := List.mem_flatMap.mp member
    exact ⟨loop, batch, OrderedMap.get_eq_some_iff.mpr entry, inside⟩
  · rintro ⟨loop, batch, found, inside⟩
    exact List.mem_flatMap.mpr ⟨(loop, batch), OrderedMap.get_eq_some_iff.mp found, inside⟩

end Relay

/-! ## Steps -/

def batchSize : ℕ := 100

def createdAtOf (outbox : List (OutboxRow K)) (row : ℕ) : Timestamp :=
  (outbox[row]?.map fun row => row.createdAt).getD 0

/-- `ORDER BY "createdAt" ASC LIMIT 100`: rows with equal times come in any order. -/
def IsFetch (outbox : List (OutboxRow K)) (available rows : List ℕ) : Prop :=
  rows.Nodup ∧ (∀ row ∈ rows, row ∈ available) ∧
    rows.length = min batchSize available.length ∧
    rows.Pairwise (fun row later => createdAtOf outbox row ≤ createdAtOf outbox later) ∧
    ∀ row ∈ rows, ∀ other ∈ available, other ∉ rows →
      createdAtOf outbox row ≤ createdAtOf outbox other

instance (outbox : List (OutboxRow K)) (available rows : List ℕ) :
    Decidable (IsFetch outbox available rows) := inferInstanceAs (Decidable (_ ∧ _))

/-- What a loop does next, or that it fails. -/
inductive RelayAction where
  | fetchBatch (loop : ℕ) (rows : List ℕ)
  | prepareRow (loop : ℕ)
  | publish (loop : ℕ)
  | deleteOutboxRow (loop : ℕ)
  | commit (loop : ℕ)
  | fail (loop : ℕ)

namespace Relay

def setBatch (loop : ℕ) (batch : Batch K) (relay : Relay K) : Relay K :=
  { relay with batches := relay.batches.set loop batch }

/-- One step of a loop, on the rows and the powers that are committed. -/
def next (outbox : List (OutboxRow K)) (powers : List SystemPowerplayPowerRow) (relay : Relay K) :
    RelayAction → Option (Relay K)
  | .fetchBatch loop rows =>
      if (relay.batches.get loop).isNone ∧ IsFetch outbox (relay.available outbox) rows then
        some (relay.setBatch loop ⟨rows, .fetched, []⟩)
      else none
  | .prepareRow loop =>
      (relay.batches.get loop).bind fun batch => match batch.stage, batch.todo with
        | .fetched, row :: _ =>
            outbox[row]?.bind fun outboxRow =>
              (prepareRowForPublishing powers outboxRow).toOption.map fun result =>
                relay.setBatch loop
                  { batch with stage := .prepared ⟨row, powers, result⟩ result.targets }
        | _, _ => none
  | .publish loop =>
      (relay.batches.get loop).bind fun batch => match batch.stage with
        | .prepared handled (target :: remaining) =>
            some { relay.setBatch loop { batch with stage := .prepared handled remaining } with
              published := relay.published ++ [⟨handled.row, target⟩] }
        | _ => none
  | .deleteOutboxRow loop =>
      (relay.batches.get loop).bind fun batch => match batch.stage, batch.todo with
        | .prepared handled [], _ :: rest =>
            some (relay.setBatch loop ⟨rest, .fetched, batch.handled ++ [handled]⟩)
        | _, _ => none
  | .commit loop =>
      (relay.batches.get loop).bind fun batch => match batch.stage, batch.todo with
        | .fetched, [] =>
            some { relay with
              batches := relay.batches.delete loop
              removed := relay.removed ++ batch.handled.map fun handled =>
                { handled with publishedBefore := relay.published.length } }
        | _, _ => none
  | .fail loop =>
      (relay.batches.get loop).map fun _ =>
        { relay with batches := relay.batches.delete loop }

end Relay

/-- The steps of a loop, with their preconditions. -/
inductive Relay.Step (outbox : List (OutboxRow K)) (powers : List SystemPowerplayPowerRow)
    (relay : Relay K) : RelayAction → Relay K → Prop where
  | fetchBatch {loop : ℕ} {rows : List ℕ} :
      relay.batches.get loop = none → IsFetch outbox (relay.available outbox) rows →
      Step outbox powers relay (.fetchBatch loop rows) (relay.setBatch loop ⟨rows, .fetched, []⟩)
  | prepareRow {loop row : ℕ} {rest : List ℕ} {handled : List (HandledRow K)}
      {outboxRow : OutboxRow K} {result : RowHandlingResult K} :
      relay.batches.get loop = some ⟨row :: rest, .fetched, handled⟩ →
      outbox[row]? = some outboxRow → prepareRowForPublishing powers outboxRow = .ok result →
      Step outbox powers relay (.prepareRow loop) (relay.setBatch loop
        ⟨row :: rest, .prepared ⟨row, powers, result⟩ result.targets, handled⟩)
  | publish {loop : ℕ} {todo : List ℕ} {handling : HandledRow K} {target : PublishTarget K}
      {remaining : List (PublishTarget K)} {handled : List (HandledRow K)} :
      relay.batches.get loop = some ⟨todo, .prepared handling (target :: remaining), handled⟩ →
      Step outbox powers relay (.publish loop)
        { relay.setBatch loop ⟨todo, .prepared handling remaining, handled⟩ with
          published := relay.published ++ [⟨handling.row, target⟩] }
  | deleteOutboxRow {loop row : ℕ} {rest : List ℕ} {handling : HandledRow K}
      {handled : List (HandledRow K)} :
      relay.batches.get loop = some ⟨row :: rest, .prepared handling [], handled⟩ →
      Step outbox powers relay (.deleteOutboxRow loop)
        (relay.setBatch loop ⟨rest, .fetched, handled ++ [handling]⟩)
  | commit {loop : ℕ} {handled : List (HandledRow K)} :
      relay.batches.get loop = some ⟨[], .fetched, handled⟩ →
      Step outbox powers relay (.commit loop)
        { relay with
          batches := relay.batches.delete loop
          removed := relay.removed ++ handled.map fun handled =>
            { handled with publishedBefore := relay.published.length } }
  | fail {loop : ℕ} {batch : Batch K} :
      relay.batches.get loop = some batch →
      Step outbox powers relay (.fail loop)
        { relay with batches := relay.batches.delete loop }

theorem Relay.step_of_next {outbox : List (OutboxRow K)} {powers : List SystemPowerplayPowerRow}
    {relay relay' : Relay K} {action : RelayAction}
    (taken : relay.next outbox powers action = some relay') :
    relay.Step outbox powers action relay' := by
  cases action with
  | fetchBatch loop rows =>
      obtain ⟨⟨idle, fetch⟩, same⟩ := Option.ite_none_right_eq_some.mp taken
      cases same
      exact .fetchBatch (Option.isNone_iff_eq_none.mp idle) fetch
  | prepareRow loop =>
      obtain ⟨⟨todo, stage, handled⟩, found, taken⟩ := Option.bind_eq_some_iff.mp taken
      cases stage with
      | prepared handling remaining => cases taken
      | fetched =>
          cases todo with
          | nil => cases taken
          | cons row rest =>
              obtain ⟨outboxRow, stored, taken⟩ := Option.bind_eq_some_iff.mp taken
              obtain ⟨result, prepared, rfl⟩ := Option.map_eq_some_iff.mp taken
              exact .prepareRow found stored (toOption_eq_some.mp prepared)
  | publish loop =>
      obtain ⟨⟨todo, stage, handled⟩, found, taken⟩ := Option.bind_eq_some_iff.mp taken
      cases stage with
      | fetched => cases taken
      | prepared handling remaining =>
          cases remaining with
          | nil => cases taken
          | cons target remaining =>
              cases taken
              exact .publish found
  | deleteOutboxRow loop =>
      obtain ⟨⟨todo, stage, handled⟩, found, taken⟩ := Option.bind_eq_some_iff.mp taken
      cases stage with
      | fetched => cases taken
      | prepared handling remaining =>
          cases remaining with
          | cons target remaining => cases todo <;> cases taken
          | nil =>
              cases todo with
              | nil => cases taken
              | cons row rest =>
                  cases taken
                  exact .deleteOutboxRow found
  | commit loop =>
      obtain ⟨⟨todo, stage, handled⟩, found, taken⟩ := Option.bind_eq_some_iff.mp taken
      cases stage with
      | prepared handling remaining => cases taken
      | fetched =>
          cases todo with
          | cons row rest => cases taken
          | nil =>
              cases taken
              exact .commit found
  | fail loop =>
      obtain ⟨batch, found, rfl⟩ := Option.map_eq_some_iff.mp taken
      exact .fail found

/-- A commit removes the rows that the batch has deleted. -/
theorem Relay.removedRows_commit (relay : Relay K) (batches : OrderedMap ℕ (Batch K))
    (handled : List (HandledRow K)) :
    Relay.removedRows { relay with
      batches := batches
      removed := relay.removed ++ handled.map fun handled =>
        { handled with publishedBefore := relay.published.length } } =
      relay.removedRows ++ handled.map HandledRow.row := by
  simp only [removedRows, List.map_append, List.map_map]
  rfl

/-! ## The relay and its database -/

/-- The committed contents of the database that the relay reads, and the relay. -/
structure OutboxStore (K : Type) where
  outbox : List (OutboxRow K)
  powers : List SystemPowerplayPowerRow
  relay : Relay K

/-- A transaction of a client of the database commits, or a loop takes a step. -/
inductive StoreAction (K : Type) where
  | write (inserted : List (OutboxRow K)) (powers : List SystemPowerplayPowerRow)
  | relay (action : RelayAction)

namespace OutboxStore

def start (outbox : List (OutboxRow K)) (powers : List SystemPowerplayPowerRow) : OutboxStore K :=
  ⟨outbox, powers, .empty⟩

def next (store : OutboxStore K) : StoreAction K → Option (OutboxStore K)
  | .write inserted powers =>
      some { store with outbox := store.outbox ++ inserted, powers }
  | .relay action =>
      (store.relay.next store.outbox store.powers action).map fun relay => { store with relay }

end OutboxStore

end EliteHubVault
