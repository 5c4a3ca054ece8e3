import EliteHubVault.Delivery.Shutdown
import EliteHubVault.Relay.PowerplayReach

/-!
# The relay drains the outbox

A row waits behind the rows that are not later than it. No more of these come once the clock has
passed its time and the transactions that began before have ended, and each batch of the relay
that holds one of them removes one of them.

In every run in which the relay runs, its own steps are not put off for ever and only finitely
many of them fail, each row of the outbox is handled and removed (`every_row_is_relayed`).
-/

set_option autoImplicit false
set_option linter.unusedSectionVars false

namespace EliteHubVault

open Library

variable {K : Type}

/-! ## The rows that are not later -/

/-- The rows that are not removed and not later than a time. -/
def Relay.waitingUntil (time : Timestamp) (outbox : List (OutboxRow K)) (relay : Relay K) :
    Finset ℕ :=
  (Finset.range outbox.length).filter fun row =>
    createdAtOf outbox row ≤ time ∧ row ∉ relay.removedRows

/-- The rows that a loop has locked. -/
def Relay.rowsOf (loop : ℕ) (relay : Relay K) : List ℕ :=
  ((relay.batches.get loop).map Batch.rows).getD []

/-- A loop has one of them in its batch. -/
def Relay.HoldsUntil (time : Timestamp) (outbox : List (OutboxRow K)) (loop : ℕ)
    (relay : Relay K) : Prop :=
  ∃ row ∈ relay.rowsOf loop, createdAtOf outbox row ≤ time

instance (time : Timestamp) (outbox : List (OutboxRow K)) (loop : ℕ) (relay : Relay K) :
    Decidable (relay.HoldsUntil time outbox loop) :=
  inferInstanceAs (Decidable (∃ row ∈ relay.rowsOf loop, createdAtOf outbox row ≤ time))

namespace Relay

variable {time : Timestamp} {outbox inserted : List (OutboxRow K)} {relay relay' : Relay K}
  {loop row : ℕ}

theorem mem_waitingUntil : row ∈ relay.waitingUntil time outbox ↔
    row < outbox.length ∧ createdAtOf outbox row ≤ time ∧ row ∉ relay.removedRows := by
  simp [waitingUntil]

/-- Later rows are not among them. -/
theorem waitingUntil_append (later : ∀ row ∈ inserted, time < row.createdAt) :
    relay.waitingUntil time (outbox ++ inserted) = relay.waitingUntil time outbox := by
  ext row
  rw [mem_waitingUntil, mem_waitingUntil]
  by_cases inside : row < outbox.length
  · rw [createdAtOf_append inside, List.length_append]
    exact and_congr_left fun _ => iff_of_true (Nat.lt_add_right _ inside) inside
  · refine iff_of_false ?_ fun waits => inside waits.1
    rintro ⟨insideBoth, notLater, -⟩
    have found : (outbox ++ inserted)[row]? = inserted[row - outbox.length]? :=
      List.getElem?_append_right (Nat.le_of_not_lt inside)
    have bound : row - outbox.length < inserted.length := by
      rw [List.length_append] at insideBoth
      omega
    rw [createdAtOf, found, List.getElem?_eq_getElem bound] at notLater
    exact absurd notLater (later _ (List.getElem_mem bound)).not_ge

theorem rowsOf_eq {batch : Batch K} (found : relay.batches.get loop = some batch) :
    relay.rowsOf loop = batch.rows := by rw [rowsOf, found]; rfl

/-- What is locked was inserted. -/
theorem inside_of_mem_rowsOf (sound : relay.Sound outbox) (member : row ∈ relay.rowsOf loop) :
    row < outbox.length := by
  cases found : relay.batches.get loop with
  | none =>
      rw [rowsOf, found] at member
      cases member
  | some batch =>
      rw [rowsOf_eq found] at member
      exact (sound.rows loop batch found).2.2 row member

/-- The rows of a batch keep their times. -/
theorem holdsUntil_append (sound : relay.Sound outbox) (inserted : List (OutboxRow K)) :
    relay.HoldsUntil time (outbox ++ inserted) loop ↔ relay.HoldsUntil time outbox loop := by
  refine exists_congr fun row => and_congr_right fun member => ?_
  rw [createdAtOf_append (inside_of_mem_rowsOf sound member)]

theorem waitingUntil_congr (removed : relay'.removed = relay.removed) :
    relay'.waitingUntil time outbox = relay.waitingUntil time outbox := by
  rw [waitingUntil, waitingUntil, removedRows, removedRows, removed]

/-- A commit leaves fewer of them when the batch holds one, and no more in any case. -/
theorem waitingUntil_commit (time : Timestamp) (sound : relay.Sound outbox) {batch : Batch K}
    (found : relay.batches.get loop = some batch)
    (removed : relay'.removedRows = relay.removedRows ++ batch.rows) :
    (relay'.waitingUntil time outbox).card ≤ (relay.waitingUntil time outbox).card ∧
      (relay.HoldsUntil time outbox loop →
        (relay'.waitingUntil time outbox).card < (relay.waitingUntil time outbox).card) := by
  have subset : relay'.waitingUntil time outbox ⊆ relay.waitingUntil time outbox := by
    intro row member
    obtain ⟨inside, notLater, kept⟩ := mem_waitingUntil.mp member
    rw [removed] at kept
    exact mem_waitingUntil.mpr ⟨inside, notLater, fun old => kept (List.mem_append_left _ old)⟩
  refine ⟨Finset.card_le_card subset, ?_⟩
  rintro ⟨row, member, notLater⟩
  rw [rowsOf_eq found] at member
  obtain ⟨-, disjoint, inside⟩ := sound.rows loop batch found
  refine Finset.card_lt_card (Finset.ssubset_iff_subset_ne.mpr ⟨subset, fun same => ?_⟩)
  have before : row ∈ relay.waitingUntil time outbox :=
    mem_waitingUntil.mpr ⟨inside row member, notLater, fun old => disjoint member old⟩
  rw [← same] at before
  refine (mem_waitingUntil.mp before).2.2 ?_
  rw [removed]
  exact List.mem_append_right _ member

/-- **A fetch takes one of them** when one is left and no batch is open. -/
theorem exists_mem_of_fetch (idle : relay.batches.keys = []) {rows : List ℕ}
    (fetch : IsFetch outbox (relay.available outbox) rows) (inside : row < outbox.length)
    (kept : row ∉ relay.removedRows) :
    ∃ first ∈ rows, createdAtOf outbox first ≤ createdAtOf outbox row := by
  have unlocked : row ∉ relay.locked := fun locked => by
    obtain ⟨loop, batch, found, -⟩ := mem_locked_iff.mp locked
    have known : loop ∈ relay.batches.keys := OrderedMap.get_isSome_iff.mp (by rw [found]; rfl)
    rw [idle] at known
    exact absurd known List.not_mem_nil
  have available : row ∈ relay.available outbox := mem_available.mpr ⟨inside, kept, unlocked⟩
  obtain ⟨-, -, length, -, complete⟩ := fetch
  by_cases fetched : row ∈ rows
  · exact ⟨row, fetched, le_rfl⟩
  · have some_ : 0 < rows.length := by
      rw [length]
      exact Nat.lt_min.mpr ⟨by decide, List.length_pos_of_mem available⟩
    obtain ⟨first, member⟩ := List.exists_mem_of_length_pos some_
    exact ⟨first, member, complete first member row available fetched⟩

end Relay

/-- A row that names its system does not wedge. -/
theorem OutboxInsert.NamesSystem.not_wedges {row : OutboxRow K} (names : row.NamesSystem) :
    ¬ Wedges row := by
  rintro ⟨type, payload, parsed, unreadable⟩
  obtain ⟨payload', systemId, parsed', -, text⟩ := names type
  obtain rfl := Option.some_inj.mp (parsed.symm.trans parsed')
  rw [text, Uuid.uuidIn_toText] at unreadable
  cases unreadable

/-! ## The transactions that began earlier -/

section Site

variable [Field K] [LinearOrder K] {P : Platform K}

namespace Site

variable {site site' : Site P}

/-- The open transactions that began until a time. -/
def openUntil (time : Timestamp) (site : Site P) : ℕ :=
  site.transactions.entries.countP fun entry => entry.2.startedAt ≤ time

/-- The end of a transaction. -/
theorem openUntil_delete (time : Timestamp) {transaction : ℕ} {open_ : WorkerTransaction K}
    (found : site.transactions.get transaction = some open_) :
    (site.transactions.delete transaction).entries.countP
        (fun entry => entry.2.startedAt ≤ time) ≤ site.openUntil time ∧
      (open_.startedAt ≤ time → (site.transactions.delete transaction).entries.countP
        (fun entry => entry.2.startedAt ≤ time) < site.openUntil time) := by
  have splits := List.countP_eq_countP_filter_add site.transactions.entries
    (fun entry => decide (entry.2.startedAt ≤ time)) (fun entry => decide (entry.1 ≠ transaction))
  rw [openUntil, splits]
  refine ⟨Nat.le_add_right _ _, fun early => Nat.lt_add_of_pos_right ?_⟩
  refine List.countP_pos_iff.mpr ⟨(transaction, open_), List.mem_filter.mpr
    ⟨OrderedMap.get_eq_some_iff.mp found, by simp⟩, by simpa using early⟩

/-- **A step of the worker** after a time leaves fewer transactions that began until it, or adds
later rows only. -/
theorem openUntil_next {time : Timestamp} {action : SiteAction K} (passed : time < site.clock)
    (other : ∀ relayAction, action ≠ .relay relayAction)
    (taken : site.next action = some site') : time < site'.clock ∧
      ∃ inserted, site'.db.eventOutbox = site.db.eventOutbox ++ inserted ∧
        (site'.openUntil time < site.openUntil time ∨
          (site'.openUntil time = site.openUntil time ∧
            ∀ row ∈ inserted, time < row.createdAt)) := by
  cases action with
  | tick clock =>
      obtain ⟨later, same⟩ := Option.ite_none_right_eq_some.mp taken
      cases same
      exact ⟨passed.trans_le later, [], (List.append_nil _).symm,
        .inr ⟨rfl, fun _ member => absurd member List.not_mem_nil⟩⟩
  | begin transaction message =>
      obtain ⟨fresh, same⟩ := Option.ite_none_right_eq_some.mp taken
      cases same
      refine ⟨passed, [], (List.append_nil _).symm,
        .inr ⟨?_, fun _ member => absurd member List.not_mem_nil⟩⟩
      have counted := OrderedMap.count_set_of_none
        (fun transaction : WorkerTransaction K => transaction.startedAt ≤ time)
        (Option.isNone_iff_eq_none.mp fresh) ⟨site.clock, message⟩
      rw [if_neg passed.not_ge, Nat.add_zero] at counted
      exact counted
  | commit transaction env =>
      obtain ⟨open_, found, moved⟩ := Option.bind_eq_some_iff.mp taken
      obtain ⟨started, committed⟩ := Option.ite_none_right_eq_some.mp moved
      obtain ⟨db, processed, rfl⟩ := Option.map_eq_some_iff.mp committed
      obtain ⟨inserted, grown, times⟩ := appends_processMessage (toOption_eq_some.mp processed)
      refine ⟨passed, inserted, grown, ?_⟩
      obtain ⟨fewer, strictly⟩ := openUntil_delete time found
      by_cases early : open_.startedAt ≤ time
      · exact .inl (strictly early)
      · refine fewer.lt_or_eq.imp_right fun same => ⟨same, fun row member => ?_⟩
        rw [times row member, started]
        exact lt_of_not_ge early
  | rollback transaction =>
      obtain ⟨open_, found, rfl⟩ := Option.map_eq_some_iff.mp taken
      refine ⟨passed, [], (List.append_nil _).symm, ?_⟩
      exact (openUntil_delete time found).1.lt_or_eq.imp_right fun same =>
        ⟨same, fun _ member => absurd member List.not_mem_nil⟩
  | relay action => exact absurd rfl (other action)

/-- The clock does not go back. -/
theorem clock_le_next {action : SiteAction K} (taken : site.next action = some site') :
    site.clock ≤ site'.clock := by
  cases action with
  | tick clock =>
      obtain ⟨later, same⟩ := Option.ite_none_right_eq_some.mp taken
      cases same
      exact later
  | begin transaction message =>
      obtain ⟨-, same⟩ := Option.ite_none_right_eq_some.mp taken
      cases same
      exact le_rfl
  | commit transaction env =>
      obtain ⟨open_, -, moved⟩ := Option.bind_eq_some_iff.mp taken
      obtain ⟨-, committed⟩ := Option.ite_none_right_eq_some.mp moved
      obtain ⟨db, -, rfl⟩ := Option.map_eq_some_iff.mp committed
      exact le_rfl
  | rollback transaction =>
      obtain ⟨open_, -, rfl⟩ := Option.map_eq_some_iff.mp taken
      exact le_rfl
  | relay action =>
      obtain ⟨batches, -, rfl⟩ := Option.map_eq_some_iff.mp taken
      exact le_rfl

end Site

/-- The outbox grows in a run of the deployment, and the clock does not go back. -/
theorem Deployment.grows_of_reaches {codec : JsonCodec K}
    {guard : Deployment P → DeploymentAction K → Prop} {deployment deployment' : Deployment P}
    (consistent : deployment.site.Consistent)
    (run : Reaches (Deployment.next codec) guard deployment deployment') :
    deployment.site.db.eventOutbox <+: deployment'.site.db.eventOutbox ∧
      deployment.site.clock ≤ deployment'.site.clock := by
  induction run with
  | start => exact ⟨List.prefix_rfl, le_rfl⟩
  | step before _ taken ih =>
      obtain same | ⟨siteAction, -, stepped⟩ := site_of_next taken
      · rw [same]
        exact ih
      · obtain ⟨-, inserted, grown⟩ := (consistent_of_reaches consistent before).step stepped
        exact ⟨ih.1.trans (grown ▸ List.prefix_append _ _),
          ih.2.trans (Site.clock_le_next stepped)⟩

/-! ## Steps of the server -/

namespace RelayAction

/-- The step fails its batch. -/
def IsFailure : RelayAction → Prop
  | .fail _ => True
  | _ => False

end RelayAction

namespace ApiServerAction

/-- A loop of the relay gets on with its work. -/
def Works : ApiServerAction K → Prop
  | .sleepEnds _ => True
  | .deployment (.site (.relay action)) => ¬ action.IsFailure
  | _ => False

/-- A transaction of the relay fails. -/
def Fails : ApiServerAction K → Prop
  | .transactionFails _ => True
  | .deployment (.site (.relay action)) => action.IsFailure
  | _ => False

end ApiServerAction

namespace ApiServer

variable {codec : JsonCodec K} {server server' : ApiServer P} {time : Timestamp} {row loop : ℕ}

/-- The rows of the outbox. -/
def outbox (server : ApiServer P) : List (OutboxRow K) := server.deployment.site.db.eventOutbox

/-- How far the loop is from the commit of a batch that holds a row that is not later. -/
def stageRank (time : Timestamp) (loop : ℕ) (server : ApiServer P) : ℕ :=
  match server.eventOutboxRelay.loops.get loop with
  | some .batch => if server.relay.HoldsUntil time server.outbox loop then 0 else 3
  | some .transaction => 1
  | some .sleep => 2
  | none => 4

/-- **The rank of a waiting row**: the transactions that can still insert a row before it, the rows
that are not later, and what the loop has to do to remove one of them. -/
def drainRank (time : Timestamp) (loop : ℕ) (server : ApiServer P) :
    ℕ ×ₗ ℕ ×ₗ ℕ ×ₗ ℕ ×ₗ ℕ ×ₗ ℕ :=
  toLex (server.deployment.site.openUntil time,
    toLex ((server.relay.waitingUntil time server.outbox).card,
      toLex (server.stageRank time loop, EventOutboxRelay.batchRank loop server.relay)))

/-- The row waits, and the relay runs. -/
structure Waits (row : ℕ) (time : Timestamp) (loop : ℕ) (server : ApiServer P) : Prop where
  running : server.Running
  goesOn : server.isShuttingDown = false
  runs : server.eventOutboxRelay.isRunning = true
  named : server.eventOutboxRelay.loopPromise = some loop
  inside : row < server.outbox.length
  created : createdAtOf server.outbox row = time
  passed : time < server.deployment.site.clock
  kept : row ∉ server.relay.removedRows

namespace Waits

theorem relay (waits : server.Waits row time loop) : server.relay.Sound server.outbox :=
  waits.running.consistent.relay

theorem continues (waits : server.Waits row time loop) :
    server.eventOutboxRelay.shouldStop = false :=
  (waits.running.sound.loop.runs waits.runs (waits.running.sound.shuts waits.goesOn)).1

/-- A call of the loop that has not returned is the one that is named. -/
theorem eq_of_live (waits : server.Waits row time loop) {other : ℕ} {stage : LoopStage}
    (live : server.eventOutboxRelay.loops.get other = some stage) : other = loop :=
  Option.some_inj.mp
    ((waits.running.sound.loop.alone other stage live).2.symm.trans waits.named)

theorem live (waits : server.Waits row time loop) :
    ∃ stage, server.eventOutboxRelay.loops.get loop = some stage := by
  obtain ⟨-, other, stage, live⟩ :=
    waits.running.sound.loop.runs waits.runs (waits.running.sound.shuts waits.goesOn)
  exact ⟨stage, waits.eq_of_live live ▸ live⟩

/-- A loop begins a transaction after its sleep or a batch. -/
theorem get_testShouldStop (waits : server.Waits row time loop) :
    (server.eventOutboxRelay.testShouldStop loop).loops.get loop = some .transaction := by
  rw [EventOutboxRelay.get_testShouldStop, if_pos rfl, waits.continues]
  rfl

/-- A batch is open exactly in its stage. -/
theorem idle (waits : server.Waits row time loop)
    (live : server.eventOutboxRelay.loops.get loop ≠ some .batch) :
    server.relay.batches.keys = [] := by
  refine List.eq_nil_iff_forall_not_mem.mpr fun other member => ?_
  have inBatch :=
    (waits.running.sound.holds other).mp (OrderedMap.get_isSome_iff.mpr member)
  exact live (waits.eq_of_live inBatch ▸ inBatch)

end Waits

theorem stageRank_congr (live : server'.eventOutboxRelay.loops.get loop =
      server.eventOutboxRelay.loops.get loop)
    (holds : server'.relay.HoldsUntil time server'.outbox loop ↔
      server.relay.HoldsUntil time server.outbox loop) :
    server'.stageRank time loop = server.stageRank time loop := by
  unfold stageRank
  rw [live]
  split <;> simp only [holds]

/-! ### Steps of the worker and of the clients -/

theorem drainRank_le_of_site (waits : server.Waits row time loop)
    (sameLoop : server'.eventOutboxRelay = server.eventOutboxRelay)
    (sameRelay : server'.relay = server.relay) {inserted : List (OutboxRow K)}
    (grown : server'.outbox = server.outbox ++ inserted)
    (later : server'.deployment.site.openUntil time < server.deployment.site.openUntil time ∨
      (server'.deployment.site.openUntil time = server.deployment.site.openUntil time ∧
        ∀ row ∈ inserted, time < row.createdAt)) :
    server'.drainRank time loop ≤ server.drainRank time loop := by
  rcases later with fewer | ⟨same, later⟩
  · exact le_of_lt (Prod.Lex.left _ _ fewer)
  · have stage : server'.stageRank time loop = server.stageRank time loop := by
      refine stageRank_congr (by rw [sameLoop]) ?_
      rw [sameRelay, grown]
      exact Relay.holdsUntil_append waits.relay inserted
    rw [drainRank, drainRank, same, sameRelay, stage, grown, Relay.waitingUntil_append later]

/-! ### Steps of the relay -/

/-- What the relay does leaves the database and the transactions. -/
theorem site_of_relay {relayAction : RelayAction}
    (taken : server.next codec (.deployment (.site (.relay relayAction))) = some server') :
    server'.deployment.site = { server.deployment.site with relay := server'.relay } := by
  obtain ⟨site, siteStep, same⟩ := Option.map_eq_some_iff.mp (deployment_cases taken).1
  obtain ⟨batches, -, rfl⟩ := Option.map_eq_some_iff.mp siteStep
  rw [ApiServer.relay, ← same]

/-- The loop alone moves on. -/
theorem drainRank_lt_of_stage (outbox : server'.outbox = server.outbox)
    (transactions : server'.deployment.site.openUntil time = server.deployment.site.openUntil time)
    (removed : server'.relay.removed = server.relay.removed)
    (less : server'.stageRank time loop < server.stageRank time loop) :
    server'.drainRank time loop < server.drainRank time loop := by
  rw [drainRank, drainRank, outbox, transactions, Relay.waitingUntil_congr removed]
  exact Prod.Lex.right _ (Prod.Lex.right _ (Prod.Lex.left _ _ less))

theorem stageRank_transaction
    (live : server.eventOutboxRelay.loops.get loop = some .transaction) :
    server.stageRank time loop = 1 := by rw [stageRank, live]

theorem stageRank_sleep (live : server.eventOutboxRelay.loops.get loop = some .sleep) :
    server.stageRank time loop = 2 := by rw [stageRank, live]

theorem stageRank_batch (live : server.eventOutboxRelay.loops.get loop = some .batch) :
    server.stageRank time loop =
      if server.relay.HoldsUntil time server.outbox loop then 0 else 3 := by rw [stageRank, live]

/-- After a batch the loop sleeps or begins a transaction. -/
theorem stageRank_afterBatch (waits : server.Waits row time loop) {processedCount : ℕ}
    (later : server.eventOutboxRelay.afterBatch loop processedCount = server'.eventOutboxRelay) :
    server'.stageRank time loop < 3 := by
  unfold EventOutboxRelay.afterBatch at later
  dsimp only at later
  split at later
  · rw [stageRank_sleep (by rw [← later]; exact OrderedMap.get_set_self _ _ _)]
    exact Nat.lt_succ_self 2
  · have live : server'.eventOutboxRelay.loops.get loop = some .transaction := by
      rw [← later, EventOutboxRelay.get_testShouldStop, if_pos rfl]
      simp [waits.continues]
    rw [stageRank_transaction live]
    exact Nat.lt_of_sub_eq_succ rfl

section Steps

variable (waits : server.Waits row time loop) (outbox : server'.outbox = server.outbox)
  (transactions : server'.deployment.site.openUntil time = server.deployment.site.openUntil time)

include waits outbox transactions

theorem drainRank_lt_of_fetch {rows : List ℕ}
    (live : server.eventOutboxRelay.loops.get loop = some .transaction)
    (live' : server'.eventOutboxRelay.loops.get loop = some .batch)
    (fetch : IsFetch server.outbox (server.relay.available server.outbox) rows)
    (fetched : server'.relay = server.relay.setBatch loop ⟨rows, .fetched, []⟩) :
    server'.drainRank time loop < server.drainRank time loop := by
  have noBatch := waits.idle (by rw [live]; decide)
  obtain ⟨first, member, notLater⟩ :=
    Relay.exists_mem_of_fetch noBatch fetch waits.inside waits.kept
  have holds : server'.relay.HoldsUntil time server'.outbox loop := by
    rw [fetched, outbox]
    refine ⟨first, ?_, waits.created ▸ notLater⟩
    rw [Relay.rowsOf_eq (OrderedMap.get_set_self _ _ _)]
    simpa [Batch.rows, Batch.handledRows] using member
  refine drainRank_lt_of_stage outbox transactions (by rw [fetched]; rfl) ?_
  rw [stageRank_batch live', if_pos holds, stageRank_transaction live]
  exact Nat.zero_lt_one

theorem drainRank_lt_of_advance {before after : Batch K}
    (live : server.eventOutboxRelay.loops.get loop = some .batch)
    (live' : server'.eventOutboxRelay.loops.get loop = some .batch)
    (found : server.relay.batches.get loop = some before)
    (found' : server'.relay.batches.get loop = some after) (less : after.rank < before.rank)
    (rows : after.rows = before.rows) (removed : server'.relay.removed = server.relay.removed) :
    server'.drainRank time loop < server.drainRank time loop := by
  have holds : server'.relay.HoldsUntil time server'.outbox loop ↔
      server.relay.HoldsUntil time server.outbox loop := by
    rw [outbox, Relay.HoldsUntil, Relay.HoldsUntil, Relay.rowsOf_eq found, Relay.rowsOf_eq found',
      rows]
  rw [drainRank, drainRank, outbox, transactions, Relay.waitingUntil_congr removed,
    stageRank_congr (live'.trans live.symm) holds]
  refine Prod.Lex.right _ (Prod.Lex.right _ (Prod.Lex.right _ ?_))
  rw [EventOutboxRelay.batchRank, EventOutboxRelay.batchRank, found, found']
  exact less

theorem drainRank_lt_of_commit {batch : Batch K} {processedCount : ℕ}
    (live : server.eventOutboxRelay.loops.get loop = some .batch)
    (later : server.eventOutboxRelay.afterBatch loop processedCount = server'.eventOutboxRelay)
    (found : server.relay.batches.get loop = some batch)
    (removed : server'.relay.removedRows = server.relay.removedRows ++ batch.rows) :
    server'.drainRank time loop < server.drainRank time loop := by
  obtain ⟨fewer, strictly⟩ := Relay.waitingUntil_commit time waits.relay found removed
  rw [drainRank, drainRank, outbox, transactions]
  refine Prod.Lex.right _ ?_
  by_cases holds : server.relay.HoldsUntil time server.outbox loop
  · exact Prod.Lex.left _ _ (strictly holds)
  · -- The batch was fetched before the row was inserted, and the next one holds a row.
    refine Prod.Lex.toLex_lt_toLex.mpr (fewer.lt_or_eq.imp_right fun same => ⟨same, ?_⟩)
    refine Prod.Lex.left _ _ ?_
    rw [stageRank_batch live, if_neg holds]
    exact stageRank_afterBatch waits later

end Steps

/-- **Each step of the relay that does not fail** brings the row closer to its removal. -/
theorem drainRank_lt_of_relay (waits : server.Waits row time loop) {relayAction : RelayAction}
    (taken : server.next codec (.deployment (.site (.relay relayAction))) = some server')
    (succeeds : ¬ relayAction.IsFailure) :
    server'.drainRank time loop < server.drainRank time loop := by
  have site := site_of_relay taken
  have outbox : server'.outbox = server.outbox := by rw [ApiServer.outbox, site]; rfl
  have transactions : server'.deployment.site.openUntil time =
      server.deployment.site.openUntil time := by rw [site]; rfl
  obtain ⟨-, -, -, ⟨-, -, other⟩ | ⟨relayAction, isRelay, followed, stepped⟩⟩ :=
    deployment_cases taken
  · exact absurd rfl (other relayAction)
  cases isRelay
  obtain ⟨live, same⟩ := Option.ite_none_right_eq_some.mp followed
  have later := Option.some_inj.mp same
  have here := waits.eq_of_live live
  have batchStep := waits.running.batchStep stepped
  generalize isBatches : server'.relay = batches at batchStep
  cases batchStep with
  | fetches idle fetch =>
      subst here
      refine drainRank_lt_of_fetch waits outbox transactions live ?_ fetch isBatches
      rw [← later]
      exact OrderedMap.get_set_self _ _ _
  | advances stage stays found replaced less rows removed =>
      rw [stage] at here live
      subst here
      subst isBatches
      refine drainRank_lt_of_advance waits outbox transactions live ?_ found ?_ less rows removed
      · rw [← later, stays]
        exact live
      · rw [replaced]
        exact OrderedMap.get_set_self _ _ _
  | commits found deleted removed =>
      subst here
      subst isBatches
      exact drainRank_lt_of_commit waits outbox transactions live later found removed
  | fails found deleted removed => exact absurd trivial succeeds

/-! ### A row that waits -/

namespace Waits

/-- What a row that waits on keeps. -/
theorem later (waits : server.Waits row time loop) {action : ApiServerAction K}
    (taken : server.next codec action = some server')
    (goesOn : server'.isShuttingDown = server.isShuttingDown)
    (runs : server'.eventOutboxRelay.isRunning = server.eventOutboxRelay.isRunning)
    (named : server'.eventOutboxRelay.loopPromise = server.eventOutboxRelay.loopPromise)
    (inserted : List (OutboxRow K)) (grown : server'.outbox = server.outbox ++ inserted)
    (passed : time < server'.deployment.site.clock) (kept : row ∉ server'.relay.removedRows) :
    server'.Waits row time loop where
  running := waits.running.step taken
  goesOn := goesOn.trans waits.goesOn
  runs := runs.trans waits.runs
  named := named.trans waits.named
  inside := by
    rw [grown, List.length_append]
    exact Nat.lt_add_right _ waits.inside
  created := by
    rw [grown, createdAtOf_append waits.inside]
    exact waits.created
  passed := passed
  kept := kept

/-- **A step without a failure removes the row or brings it closer to its removal**, and each
step of the relay does. -/
theorem step (waits : server.Waits row time loop) {action : ApiServerAction K}
    (taken : server.next codec action = some server') (goesOn : action ≠ .shutdown)
    (succeeds : ¬ action.Fails) : row ∈ server'.relay.removedRows ∨
      (server'.Waits row time loop ∧ server'.drainRank time loop ≤ server.drainRank time loop ∧
        (action.Works → server'.drainRank time loop < server.drainRank time loop)) := by
  cases action with
  | redisReady =>
      cases taken
      have same : server.eventOutboxRelay.start = server.eventOutboxRelay := by
        rw [EventOutboxRelay.start, if_pos waits.runs]
      rw [same]
      exact .inr ⟨waits, le_rfl, False.elim⟩
  | shutdown => exact absurd rfl goesOn
  | relayStopped =>
      obtain ⟨promise, pending, -⟩ := Option.bind_eq_some_iff.mp taken
      have none_ := waits.running.sound.shuts waits.goesOn
      exact absurd (pending.symm.trans none_) (Option.some_ne_none _)
  | transactionFails other => exact absurd trivial succeeds
  | sleepEnds other =>
      have taken' := taken
      obtain ⟨relay, woken, rfl⟩ := Option.map_eq_some_iff.mp taken
      obtain ⟨live, same⟩ := Option.ite_none_right_eq_some.mp woken
      cases same
      obtain rfl := waits.eq_of_live live
      obtain ⟨isRunning, -, loopPromise⟩ :=
        EventOutboxRelay.testShouldStop_fields server.eventOutboxRelay other
      have less : drainRank time other { server with
          eventOutboxRelay := server.eventOutboxRelay.testShouldStop other } <
            server.drainRank time other := by
        refine drainRank_lt_of_stage rfl rfl rfl ?_
        rw [stageRank_transaction waits.get_testShouldStop, stageRank_sleep live]
        exact Nat.lt_succ_self 1
      exact .inr ⟨waits.later taken' rfl isRunning loopPromise [] (List.append_nil _).symm
        waits.passed waits.kept, less.le, fun _ => less⟩
  | deployment action =>
      by_cases removed : row ∈ server'.relay.removedRows
      · exact .inl removed
      right
      obtain ⟨stepped, shuts, -, ⟨sameLoop, sameRelay, other⟩ | ⟨relayAction, rfl, followed, -⟩⟩ :=
        deployment_cases taken
      · have idle : ¬ (ApiServerAction.deployment action).Works := by
          intro works
          cases action with
          | site action =>
              cases action with
              | relay relayAction => exact other relayAction rfl
              | tick clock => exact works
              | begin transaction message => exact works
              | commit transaction env => exact works
              | rollback transaction => exact works
          | deliver => exact works
          | broker action => exact works
        obtain ⟨passed, inserted, grown, later⟩ : time < server'.deployment.site.clock ∧
            ∃ inserted, server'.outbox = server.outbox ++ inserted ∧
              (server'.deployment.site.openUntil time < server.deployment.site.openUntil time ∨
                (server'.deployment.site.openUntil time = server.deployment.site.openUntil time ∧
                  ∀ row ∈ inserted, time < row.createdAt)) := by
          obtain same | ⟨siteAction, rfl, siteStep⟩ := Deployment.site_of_next stepped
          · rw [ApiServer.outbox, ApiServer.outbox, same]
            exact ⟨waits.passed, [], (List.append_nil _).symm,
              .inr ⟨rfl, fun _ member => absurd member List.not_mem_nil⟩⟩
          · exact Site.openUntil_next waits.passed
              (fun relayAction isRelay => other relayAction (congrArg _ isRelay)) siteStep
        exact ⟨waits.later taken shuts (congrArg _ sameLoop) (congrArg _ sameLoop) inserted grown passed
          removed, drainRank_le_of_site waits sameLoop sameRelay grown later,
          fun works => absurd works idle⟩
      · have less := drainRank_lt_of_relay waits taken succeeds
        have site := site_of_relay taken
        obtain ⟨isRunning, loopPromise⟩ := EventOutboxRelay.follow_fields followed
        refine ⟨waits.later taken shuts isRunning loopPromise [] ?_ ?_ removed,
          less.le, fun _ => less⟩
        · rw [List.append_nil, ApiServer.outbox, site]
          rfl
        · rw [site]
          exact waits.passed

/-- **Some step of the relay that does not fail is possible.** -/
theorem possible (waits : server.Waits row time loop)
    (valid : ∀ outboxRow ∈ server.outbox, ValidCreatedAt outboxRow.createdAt) :
    ∃ action : ApiServerAction K, action.Works ∧ (server.next codec action).isSome := by
  obtain ⟨stage, live⟩ := waits.live
  cases stage with
  | sleep =>
      refine ⟨.sleepEnds loop, trivial, ?_⟩
      simp [next, EventOutboxRelay.endSleep, live]
  | transaction =>
      have idle : server.deployment.site.relay.batches.get loop = none := by
        refine OrderedMap.get_eq_none_iff.mpr ?_
        rw [show server.deployment.site.relay.batches.keys = [] from
          waits.idle (by rw [live]; decide)]
        exact List.not_mem_nil
      have once : (server.relay.available server.outbox).Nodup := List.nodup_range.filter _
      obtain ⟨rows, fetch⟩ := Relay.exists_isFetch server.outbox once
      refine ⟨.deployment (.site (.relay (.fetchBatch loop rows))), id, ?_⟩
      have fetches : IsFetch server.deployment.site.db.eventOutbox
          (server.deployment.site.relay.available server.deployment.site.db.eventOutbox) rows :=
        fetch
      simp [next, followed, EventOutboxRelay.follow, EventOutboxRelay.stageOf, live,
        Deployment.next, Site.next, Relay.next, idle, fetches]
  | batch =>
      obtain ⟨batch, found⟩ :=
        Option.isSome_iff_exists.mp ((waits.running.sound.holds loop).mpr live)
      obtain ⟨action, succeeds, stage, possible⟩ := Relay.exists_next
        server.deployment.site.db.systemPowerplayPowers.rows waits.relay found
        fun row _ outboxRow stored => by
          have member := List.mem_of_getElem? stored
          have named := powerplayNamed_of_workerReachable waits.running.consistent.worker
          exact (prepareRowForPublishing_ends_iff _ (valid outboxRow member)).mpr
            (named outboxRow member).not_wedges
      have works : ¬ action.IsFailure := by
        intro failure
        cases action with
        | fail other =>
            obtain rfl : other = loop := congrArg Prod.fst stage
            exact succeeds rfl
        | fetchBatch other rows => exact failure
        | prepareRow other => exact failure
        | publish other => exact failure
        | deleteOutboxRow other => exact failure
        | commit other => exact failure
      refine ⟨.deployment (.site (.relay action)), works, ?_⟩
      obtain ⟨batches, taken⟩ := Option.isSome_iff_exists.mp possible
      have inSite : server.deployment.site.relay.next server.deployment.site.db.eventOutbox
          server.deployment.site.db.systemPowerplayPowers.rows action = some batches := taken
      simp [next, followed, EventOutboxRelay.follow, stage, live, Deployment.next, Site.next,
        inSite]

end Waits

/-! ## Runs -/

theorem Running.grows (running : server.Running) {action : ApiServerAction K}
    (taken : server.next codec action = some server') :
    server.outbox <+: server'.outbox ∧
      server.deployment.site.clock ≤ server'.deployment.site.clock :=
  Deployment.grows_of_reaches running.consistent (deployment_of_next running.sound taken)

/-- Without a shutdown the relay keeps running. -/
theorem Running.keepsRunning (running : server.Running) (goesOn : server.isShuttingDown = false)
    (runs : server.eventOutboxRelay.isRunning = true) {action : ApiServerAction K}
    (taken : server.next codec action = some server') :
    server'.eventOutboxRelay.isRunning = true := by
  cases action with
  | redisReady =>
      cases taken
      dsimp only
      rw [EventOutboxRelay.start, if_pos runs]
      exact runs
  | shutdown =>
      unfold next at taken
      dsimp only at taken
      rw [goesOn, if_neg Bool.false_ne_true] at taken
      cases taken
      dsimp only
      rw [EventOutboxRelay.stop, if_pos runs]
      exact runs
  | relayStopped =>
      obtain ⟨promise, pending, -⟩ := Option.bind_eq_some_iff.mp taken
      exact absurd (pending.symm.trans (running.sound.shuts goesOn)) (Option.some_ne_none _)
  | transactionFails loop =>
      obtain ⟨relay, failed, rfl⟩ := Option.map_eq_some_iff.mp taken
      obtain ⟨live, same⟩ := Option.ite_none_right_eq_some.mp failed
      cases same
      exact runs
  | sleepEnds loop =>
      obtain ⟨relay, woken, rfl⟩ := Option.map_eq_some_iff.mp taken
      obtain ⟨live, same⟩ := Option.ite_none_right_eq_some.mp woken
      cases same
      exact (EventOutboxRelay.testShouldStop_fields _ loop).1.trans runs
  | deployment action =>
      obtain ⟨-, -, -, ⟨sameLoop, -, -⟩ | ⟨relayAction, -, followed, -⟩⟩ := deployment_cases taken
      · exact (congrArg _ sameLoop).trans runs
      · exact (EventOutboxRelay.follow_fields followed).1.trans runs

theorem Running.grows_of_le {run : InfiniteRun (next (P := P) codec)}
    (running : ∀ m, (run.state m).Running) {m k : ℕ} (later : m ≤ k) :
    (run.state m).outbox <+: (run.state k).outbox ∧
      (run.state m).deployment.site.clock ≤ (run.state k).deployment.site.clock := by
  induction k, later using Nat.le_induction with
  | base => exact ⟨List.prefix_rfl, le_rfl⟩
  | succ k later ih =>
      obtain ⟨longer, after⟩ := (running k).grows (run.taken k)
      exact ⟨ih.1.trans longer, ih.2.trans after⟩

/-- Every state of a run of the server is a server in a run. -/
theorem running_of_begins {db : Db P} {clock : Timestamp} {isUp : Bool}
    {run : InfiniteRun (next (P := P) codec)} (reachable : WorkerReachable db)
    (begins : Reachable (next codec) (.start db clock isUp) (run.state 0)) (m : ℕ) :
    (run.state m).Running :=
  ((Running.start reachable clock isUp).of_reaches begins).of_reaches
    (run.reaches (Nat.zero_le m) fun _ _ _ => trivial : Reachable _ _ _)

/-- **What a run needs to relay a row**: there is no shutdown, the relay comes to run, its steps
are not put off for ever while the row waits, only finitely many of its transactions fail, and
all rows have times that are valid dates. -/
structure Relays (row : ℕ) (run : InfiniteRun (next (P := P) codec)) : Prop where
  goesOn : ∀ m, (run.state m).isShuttingDown = false
  runs : ∃ m, (run.state m).eventOutboxRelay.isRunning = true
  fair : run.WeaklyFair fun server action => action.Works ∧ row ∉ server.relay.removedRows
  succeeds : ∃ m, ∀ k, m ≤ k → ¬ (run.action k).Fails
  valid : ∀ m, ∀ outboxRow ∈ (run.state m).outbox, ValidCreatedAt outboxRow.createdAt

/-- Such a run removes the row. -/
theorem Relays.removes {n row : ℕ} {run : InfiniteRun (next (P := P) codec)} (relays : Relays row run)
    (running : ∀ m, (run.state m).Running) (inserted : row < (run.state n).outbox.length)
    (passes : ∃ m, createdAtOf (run.state n).outbox row < (run.state m).deployment.site.clock) :
    ∃ m, n ≤ m ∧ row ∈ (run.state m).relay.removedRows := by
  obtain ⟨starts, isRunning⟩ := relays.runs
  obtain ⟨lastFailure, succeeds⟩ := relays.succeeds
  obtain ⟨passing, passes⟩ := passes
  -- From here on the relay runs, no transaction fails and the clock is past the row.
  obtain ⟨settled, afterRow, afterStart, afterFailure, afterPassing⟩ :
      ∃ settled, n ≤ settled ∧ starts ≤ settled ∧ lastFailure ≤ settled ∧ passing ≤ settled :=
    ⟨n + starts + lastFailure + passing, by omega, by omega, by omega, by omega⟩
  by_cases already : row ∈ (run.state settled).relay.removedRows
  · exact ⟨settled, afterRow, already⟩
  obtain ⟨later, grown⟩ := (Running.grows_of_le running afterRow).1
  have isRunning : (run.state settled).eventOutboxRelay.isRunning = true :=
    run.always (p := fun server => server.eventOutboxRelay.isRunning = true) afterStart isRunning
      fun k _ _ runs => (running k).keepsRunning (relays.goesOn k) runs (run.taken k)
  obtain ⟨-, loop, stage, live⟩ := (running settled).sound.loop.runs isRunning
    ((running settled).sound.shuts (relays.goesOn settled))
  have waits : (run.state settled).Waits row (createdAtOf (run.state n).outbox row) loop :=
    { running := running settled
      goesOn := relays.goesOn settled
      runs := isRunning
      named := ((running settled).sound.loop.alone loop stage live).2
      inside := by
        rw [← grown, List.length_append]
        exact Nat.lt_add_right _ inserted
      created := by rw [← grown, createdAtOf_append inserted]
      passed := passes.trans_le (Running.grows_of_le running afterPassing).2
      kept := already }
  have possible : ∀ m, settled ≤ m →
      (run.state m).Waits row (createdAtOf (run.state n).outbox row) loop →
        ∃ action : ApiServerAction K, (action.Works ∧ row ∉ (run.state m).relay.removedRows) ∧
          ((run.state m).next codec action).isSome := by
    intro m _ waits
    obtain ⟨action, works, taken⟩ := waits.possible (relays.valid m)
    exact ⟨action, ⟨works, waits.kept⟩, taken⟩
  obtain ⟨m, after, removed⟩ := relays.fair.eventually_of_rank
    (drainRank (createdAtOf (run.state n).outbox row) loop)
    (Waits row (createdAtOf (run.state n).outbox row) loop)
    (fun server => row ∈ server.relay.removedRows) possible
    (fun m later waits => by
      have stays : run.action m ≠ .shutdown := fun isShutdown => by
        have taken := run.taken m
        rw [isShutdown, next, relays.goesOn m, if_neg Bool.false_ne_true] at taken
        have shuts := relays.goesOn (m + 1)
        rw [← Option.some_inj.mp taken] at shuts
        cases shuts
      exact (waits.step (run.taken m) stays (succeeds m (afterFailure.trans later))).imp_right
        fun still => ⟨still.1, still.2.1, fun helps => still.2.2 helps.1⟩) waits
  exact ⟨m, afterRow.trans after, removed⟩

/-- What is published of a row that is removed. -/
theorem Running.removal_of_mem {row : ℕ} (running : server.Running)
    (member : row ∈ server.relay.removedRows) :
    ∃ removal ∈ server.relay.removed, removal.row = row ∧ removal.Answers server.outbox ∧
      removal.PublishedIn server.relay.published := by
  obtain ⟨removal, listed, same⟩ := List.mem_map.mp member
  obtain ⟨answers, all⟩ := running.consistent.relay.removed removal listed
  exact ⟨removal, listed, same, answers, all.mono (List.take_subset _ _)⟩

/-- **Every row is relayed.** In every run without a shutdown in which the relay comes to run, its
steps are not put off for ever while the row waits and only finitely many of its transactions
fail: once the clock passes the time of a row, the relay has handled and removed it at some time,
and published every target that it found for it. -/
theorem every_row_is_relayed {db : Db P} {clock : Timestamp} {isUp : Bool} {n row : ℕ}
    (reachable : WorkerReachable db) (run : InfiniteRun (next (P := P) codec))
    (begins : Reachable (next codec) (.start db clock isUp) (run.state 0))
    (relays : Relays row run) (inserted : row < (run.state n).outbox.length)
    (passes : ∃ m, createdAtOf (run.state n).outbox row < (run.state m).deployment.site.clock) :
    ∃ m, n ≤ m ∧ ∃ removal ∈ (run.state m).relay.removed, removal.row = row ∧
      removal.Answers (run.state m).outbox ∧
      removal.PublishedIn (run.state m).relay.published := by
  have running := running_of_begins reachable begins
  obtain ⟨m, later, member⟩ := relays.removes running inserted passes
  exact ⟨m, later, (running m).removal_of_mem member⟩

/-- A shutdown goes on. -/
theorem isShuttingDown_next {action : ApiServerAction K}
    (shuts : server.isShuttingDown = true)
    (taken : server.next codec action = some server') : server'.isShuttingDown = true := by
  cases action with
  | redisReady =>
      cases taken
      exact shuts
  | shutdown =>
      unfold next at taken
      rw [if_pos shuts] at taken
      cases taken
      exact shuts
  | relayStopped =>
      obtain ⟨promise, -, moved⟩ := Option.bind_eq_some_iff.mp taken
      obtain ⟨-, same⟩ := Option.ite_none_right_eq_some.mp moved
      cases same
      exact shuts
  | transactionFails loop =>
      obtain ⟨relay, -, rfl⟩ := Option.map_eq_some_iff.mp taken
      exact shuts
  | sleepEnds loop =>
      obtain ⟨relay, -, rfl⟩ := Option.map_eq_some_iff.mp taken
      exact shuts
  | deployment action => exact (deployment_cases taken).2.1.trans shuts

/-- A run that ends where the row is removed and the server goes on relays the row. -/
theorem relays_of_ends {row last : ℕ} {run : InfiniteRun (next (P := P) codec)}
    (running : ∀ m, (run.state m).Running) (ends : ∀ m, last ≤ m → run.state m = server)
    (idle : ∀ m, last ≤ m → ¬ (run.action m).Fails) (goesOn : server.isShuttingDown = false)
    (runs : server.eventOutboxRelay.isRunning = true) (removed : row ∈ server.relay.removedRows)
    (valid : ∀ outboxRow ∈ server.outbox, ValidCreatedAt outboxRow.createdAt) :
    Relays row run where
  goesOn m := by
    by_contra shuts
    have later := run.always (p := fun server => server.isShuttingDown = true)
      (Nat.le_add_right m last) (by simpa using shuts)
      fun k _ _ shuts => isShuttingDown_next shuts (run.taken k)
    rw [ends _ (Nat.le_add_left _ _), goesOn] at later
    cases later
  runs := ⟨last, by rw [ends last le_rfl, runs]⟩
  fair n possible := by
    obtain ⟨action, ⟨-, kept⟩, -⟩ := possible (n + last) (Nat.le_add_right _ _)
    rw [ends _ (Nat.le_add_left _ _)] at kept
    exact absurd removed kept
  succeeds := ⟨last, idle⟩
  valid m outboxRow member := by
    have grown := (Running.grows_of_le running (Nat.le_add_right m last)).1
    rw [ends _ (Nat.le_add_left _ _)] at grown
    exact valid outboxRow (grown.subset member)

end ApiServer

end Site

/-! ## Samples -/

/-- Time passes, and the relay handles the row and commits its batch. -/
def sampleRelaying : List (ApiServerAction ℚ) :=
  [.deployment (.site (.tick 2))] ++
    (handleNextRow.map fun action => .deployment (.site action)) ++
      [.deployment (.site (.relay (.commit 0)))]

/-- The row of the worker is relayed after a failure. -/
theorem every_row_is_relayed_sample :
    ∃ (run : InfiniteRun (ApiServer.next (P := asciiPlatform) rationalJsonCodec)) (m : ℕ),
      (run.state 0).outbox = [] ∧ ∃ removal ∈ (run.state m).relay.removed, removal.row = 0 ∧
        removal.PublishedIn (run.state m).relay.published := by
  have computed : (execute (ApiServer.next rationalJsonCodec)
      (ApiServer.start (Db.empty : Db asciiPlatform) 1 true) (sampleServing ++ sampleRelaying)).any
      (fun server : ApiServer asciiPlatform => decide (server.isShuttingDown = false ∧
        server.eventOutboxRelay.isRunning = true ∧ 0 ∈ server.relay.removedRows ∧
        server.outbox.length = 1 ∧
        (∀ outboxRow ∈ server.outbox, (toISOString (outboxRow.createdAt / 1000)).isSome) ∧
        createdAtOf server.outbox 0 < server.deployment.site.clock)) = true := by
    decide +kernel
  obtain ⟨server, ran, observed⟩ := (Option.any_eq_true _ _).mp computed
  obtain ⟨goesOn, runs, removed, length, valid, passed⟩ := of_decide_eq_true observed
  obtain ⟨run, begins, actions, ends⟩ :=
    InfiniteRun.exists_of_execute ran (ApiServer.next_tick rationalJsonCodec server)
  have reached : Reachable (ApiServer.next rationalJsonCodec) (.start Db.empty 1 true)
      (run.state 0) := begins ▸ .start
  have idle : ∀ m, (sampleServing ++ sampleRelaying).length ≤ m → ¬ (run.action m).Fails := by
    intro m later
    rw [actions, List.getD_eq_default _ _ later]
    exact id
  have atEnd := ends _ le_rfl
  obtain ⟨m, -, removal, listed, same, -, published⟩ := ApiServer.every_row_is_relayed
    (n := (sampleServing ++ sampleRelaying).length) .start run reached
    (ApiServer.relays_of_ends (ApiServer.running_of_begins .start reached) ends idle goesOn runs
      removed valid)
    (by rw [atEnd, length]; exact Nat.zero_lt_one) ⟨_, by rw [atEnd]; exact passed⟩
  refine ⟨run, m, ?_, removal, listed, same, published⟩
  rw [begins]
  rfl

end EliteHubVault
