import EliteHubVault.Relay.Order
import EliteHubVault.Worker.NetThreat
import EliteHubVault.Worker.Outbox

/-!
# Worker transactions and relay loops together

A transaction of the worker has the time of its start as `now()` for all its statements. Its
writes become visible when it commits, so the outbox grows in commit order. Between the two
other transactions may start and commit.

`Site.observed` forgets the tables that the relay does not read; it carries every run of the
site to a run of the relay and its database.
-/

set_option autoImplicit false
set_option linter.unusedSectionVars false

namespace EliteHubVault

open Library

variable {K : Type} [Field K] [LinearOrder K]

/-! ## State and steps -/

/-- A transaction of the worker that has not ended. -/
structure WorkerTransaction (K : Type) where
  startedAt : Timestamp
  message : JournalMessage K

/-- The committed database, the clock, the transactions in flight and the relay. -/
structure Site (P : Platform K) where
  db : Db P
  clock : Timestamp
  transactions : OrderedMap ℕ (WorkerTransaction K)
  relay : Relay K

inductive SiteAction (K : Type) where
  | tick (clock : Timestamp)
  | begin (transaction : ℕ) (message : JournalMessage K)
  | commit (transaction : ℕ) (env : TxEnv)
  | rollback (transaction : ℕ)
  | relay (action : RelayAction)

namespace Site

variable {P : Platform K}

def start (db : Db P) (clock : Timestamp) : Site P := ⟨db, clock, .empty, .empty⟩

def next (site : Site P) : SiteAction K → Option (Site P)
  | .tick clock => if site.clock ≤ clock then some { site with clock } else none
  | .begin transaction message =>
      if (site.transactions.get transaction).isNone then
        some { site with transactions := site.transactions.set transaction ⟨site.clock, message⟩ }
      else none
  | .commit transaction env =>
      (site.transactions.get transaction).bind fun open_ =>
        if env.now = open_.startedAt then
          (processMessage env open_.message site.db).toOption.map fun db =>
            { site with db, transactions := site.transactions.delete transaction }
        else none
  | .rollback transaction =>
      (site.transactions.get transaction).map fun _ =>
        { site with transactions := site.transactions.delete transaction }
  | .relay action =>
      (site.relay.next site.db.eventOutbox site.db.systemPowerplayPowers.rows action).map
        fun relay => { site with relay }

/-- What the relay sees of a site. -/
def observed (site : Site P) : OutboxStore K :=
  ⟨site.db.eventOutbox, site.db.systemPowerplayPowers.rows, site.relay⟩

/-- The rows about a system are published in the order in which they were inserted: in
insertion order within a transaction, in commit order across transactions. What repeats a row
on a channel does not count. -/
def PublishesInOrder (systemId : Uuid) (site : Site P) : Prop :=
  site.relay.PublishesInOrder site.db.eventOutbox systemId

/-- The step lets no row about the system pass an earlier one that is still to be published. -/
def KeepsOrder (systemId : Uuid) (site : Site P) : SiteAction K → Prop
  | .relay action => site.relay.KeepsOrder site.db.eventOutbox site.db.systemPowerplayPowers.rows
      systemId action
  | _ => True

/-- The step fetches the rows about the system in order, and no batch fails. -/
def FetchesOnly (systemId : Uuid) (site : Site P) : SiteAction K → Prop
  | .relay action => site.relay.FetchesOnly site.db.eventOutbox systemId action
  | _ => True

instance (systemId : Uuid) (site : Site P) :
    (action : SiteAction K) → Decidable (site.KeepsOrder systemId action)
  | .relay action => inferInstanceAs (Decidable (site.relay.KeepsOrder site.db.eventOutbox
      site.db.systemPowerplayPowers.rows systemId action))
  | .tick _ => .isTrue trivial
  | .begin _ _ => .isTrue trivial
  | .commit _ _ => .isTrue trivial
  | .rollback _ => .isTrue trivial

end Site

/-! ## Runs of the relay and its database -/

namespace OutboxStore

def KeepsOrder (systemId : Uuid) (store : OutboxStore K) : StoreAction K → Prop
  | .write _ _ => True
  | .relay action => store.relay.KeepsOrder store.outbox store.powers systemId action

def FetchesOnly (systemId : Uuid) (store : OutboxStore K) : StoreAction K → Prop
  | .write _ _ => True
  | .relay action => store.relay.FetchesOnly store.outbox systemId action

variable {systemId : Uuid} {outbox : List (OutboxRow K)} {powers : List SystemPowerplayPowerRow}
  {store store' : OutboxStore K}

theorem inOrder_step {action : StoreAction K} (inOrder : store.relay.InOrder store.outbox systemId)
    (sound : store.relay.Sound store.outbox) (keeps : store.KeepsOrder systemId action)
    (taken : store.next action = some store') : store'.relay.InOrder store'.outbox systemId := by
  cases action with
  | write inserted powers =>
      cases taken
      exact inOrder.append sound inserted
  | relay action =>
      obtain ⟨relay, stepped, rfl⟩ := Option.map_eq_some_iff.mp taken
      exact inOrder.step sound keeps (Relay.step_of_next stepped)

theorem inOrder_of_reaches (reached : Reaches next (KeepsOrder systemId) (start outbox powers) store) :
    store.relay.InOrder store.outbox systemId := by
  induction reached with
  | start => exact .empty
  | step before keeps taken ih =>
      exact inOrder_step ih (sound_of_reachable before.reachable) keeps taken

theorem keepsOrder_of_fetchesOnly {action : StoreAction K}
    (none : store.relay.NonePassed store.outbox systemId) (sound : store.relay.Sound store.outbox)
    (fetches : store.FetchesOnly systemId action) : store.KeepsOrder systemId action := by
  cases action with
  | write inserted powers => trivial
  | relay action => exact none.keepsOrder sound fetches

/-- Without failures nothing that is still to be published is passed. -/
theorem nonePassed_of_reaches
    (reached : Reaches next (FetchesOnly systemId) (start outbox powers) store) :
    store.relay.InOrder store.outbox systemId ∧ store.relay.NonePassed store.outbox systemId := by
  induction reached with
  | start =>
      refine ⟨.empty, fun row _ passed => ?_⟩
      obtain ⟨later, member, -⟩ := passed
      cases member
  | @step store store' action before fetches taken ih =>
      obtain ⟨inOrder, none⟩ := ih
      have sound := sound_of_reachable before.reachable
      refine ⟨inOrder_step inOrder sound (keepsOrder_of_fetchesOnly none sound fetches) taken, ?_⟩
      cases action with
      | write inserted powers =>
          cases taken
          exact none.append sound inserted
      | relay action =>
          obtain ⟨relay, stepped, rfl⟩ := Option.map_eq_some_iff.mp taken
          exact none.step inOrder sound fetches (Relay.step_of_next stepped)

end OutboxStore

/-! ## Runs of the site -/

namespace Site

variable {P : Platform K}

/-- **A step of the site is a step of the relay and its database, or none.** -/
theorem observed_step {guard : OutboxStore K → StoreAction K → Prop} {site site' : Site P}
    {action : SiteAction K} (writes : ∀ inserted powers, guard site.observed (.write inserted powers))
    (relays : ∀ relayAction, action = .relay relayAction →
      guard site.observed (.relay relayAction))
    (taken : site.next action = some site') :
    Reaches OutboxStore.next guard site.observed site'.observed := by
  cases action with
  | tick clock =>
      obtain ⟨-, same⟩ := Option.ite_none_right_eq_some.mp taken
      cases same
      exact .start
  | begin transaction message =>
      obtain ⟨-, same⟩ := Option.ite_none_right_eq_some.mp taken
      cases same
      exact .start
  | commit transaction env =>
      obtain ⟨open_, -, taken⟩ := Option.bind_eq_some_iff.mp taken
      obtain ⟨-, committed⟩ := Option.ite_none_right_eq_some.mp taken
      obtain ⟨db, processed, rfl⟩ := Option.map_eq_some_iff.mp committed
      obtain ⟨inserted, grown, -⟩ := appends_processMessage (toOption_eq_some.mp processed)
      refine Reaches.start.step (writes inserted db.systemPowerplayPowers.rows) ?_
      rw [OutboxStore.next, observed, observed, grown]
  | rollback transaction =>
      obtain ⟨open_, -, rfl⟩ := Option.map_eq_some_iff.mp taken
      exact .start
  | relay action =>
      obtain ⟨relay, stepped, rfl⟩ := Option.map_eq_some_iff.mp taken
      refine Reaches.start.step (relays action rfl) ?_
      rw [OutboxStore.next, observed, stepped]
      rfl

variable {systemId : Uuid} {db : Db P} {clock : Timestamp} {site : Site P}

theorem observed_reaches_keepsOrder
    (reached : Reaches next (KeepsOrder systemId) (start db clock) site) :
    Reaches OutboxStore.next (OutboxStore.KeepsOrder systemId)
      (OutboxStore.start db.eventOutbox db.systemPowerplayPowers.rows) site.observed := by
  refine reached.simulate Site.observed fun _ _ _ keeps taken =>
    observed_step (fun _ _ => trivial) ?_ taken
  rintro relayAction rfl
  exact keeps

theorem observed_reaches_fetchesOnly
    (reached : Reaches next (FetchesOnly systemId) (start db clock) site) :
    Reaches OutboxStore.next (OutboxStore.FetchesOnly systemId)
      (OutboxStore.start db.eventOutbox db.systemPowerplayPowers.rows) site.observed := by
  refine reached.simulate Site.observed fun _ _ _ fetches taken =>
    observed_step (fun _ _ => trivial) ?_ taken
  rintro relayAction rfl
  exact fetches

theorem keepsOrder_of_fetchesOnly
    (reached : Reaches next (FetchesOnly systemId) (start db clock) site) :
    Reaches next (KeepsOrder systemId) (start db clock) site := by
  induction reached with
  | start => exact .start
  | @step site site' action before fetches taken ih =>
      have observed := observed_reaches_fetchesOnly before
      refine ih.step ?_ taken
      cases action with
      | relay action =>
          exact (OutboxStore.nonePassed_of_reaches observed).2.keepsOrder
            (OutboxStore.sound_of_reachable observed.reachable) fetches
      | tick clock => trivial
      | begin transaction message => trivial
      | commit transaction env => trivial
      | rollback transaction => trivial

/-- **Publication follows state order in every run whose steps let no row pass an earlier
one**, from any database, for any interleaving of transactions and relay loops. In a run
without failures that is so when every fetch takes the waiting rows in order. -/
theorem publishesInOrder_of_reaches (systemId : Uuid) {db : Db P} {clock : Timestamp}
    {site : Site P} :
    (Reaches next (KeepsOrder systemId) (start db clock) site → site.PublishesInOrder systemId) ∧
      (Reaches next (FetchesOnly systemId) (start db clock) site →
        Reaches next (KeepsOrder systemId) (start db clock) site) := by
  refine ⟨fun reached => ?_, keepsOrder_of_fetchesOnly⟩
  exact (OutboxStore.inOrder_of_reaches (observed_reaches_keepsOrder reached)).sorted

end Site

/-! ## Samples -/

/-- A loop handles its next row and publishes its target. -/
def handleNextRow : List (SiteAction ℚ) :=
  [.relay (.prepareRow 0), .relay (.publish 0), .relay (.deleteOutboxRow 0)]

/-- The rows of the publications about a system, without repetitions. -/
def sentRows (site : Site asciiPlatform) : List ℕ :=
  (site.relay.firstSent site.db.eventOutbox (.ofNat 1000)).map Prod.fst

/-- Two transactions that report one faction each. The first batch fails after it has
published its row; the next one publishes this row again and then the other. -/
theorem publishesInOrder_sample : ∃ site : Site asciiPlatform,
    site.relay.publishedRows = [0, 0, 1] ∧ sentRows site = [0, 1] ∧
      site.PublishesInOrder (.ofNat 1000) := by
  obtain ⟨site, reached, published⟩ := exists_reachable_of_execute
    (admitted Site.next (Site.KeepsOrder (.ofNat 1000))) (Site.start (Db.empty : Db asciiPlatform) 1)
    ([.begin 0 (.fsdJump (sampleMessage (some "A") [sampleFaction "A" (1 / 2)])),
      .commit 0 (sampleEnv 1), .relay (.fetchBatch 0 [0]), .relay (.prepareRow 0),
      .relay (.publish 0), .relay (.fail 0), .tick 2,
      .begin 1 (.fsdJump (sampleMessage (some "A")
        [sampleFaction "A" (1 / 2), sampleFaction "B" (1 / 4)])),
      .commit 1 (sampleEnv 2), .relay (.fetchBatch 0 [0, 1])] ++
        handleNextRow ++ handleNextRow ++ [.relay (.commit 0)])
    (fun site => site.relay.publishedRows = [0, 0, 1] ∧ sentRows site = [0, 1])
    (by decide +kernel)
  obtain ⟨rows, order⟩ := of_decide_eq_true published
  exact ⟨site, rows, order,
    (Site.publishesInOrder_of_reaches (.ofNat 1000)).1 (.of_admitted reached)⟩

/-- The second message replaces the challenger of faction A, and its transaction reports that
the threat is over and that it is new. The two rows have equal times and are published the
other way round: the last that a subscriber hears is that A is not threatened. -/
theorem threat_is_published_out_of_order :
    ∃ site : Site asciiPlatform, Reachable Site.next (Site.start Db.empty 1) site ∧
      ¬ site.PublishesInOrder (.ofNat 1000) := by
  obtain ⟨site, reached, disordered⟩ := exists_reachable_of_execute Site.next
    (Site.start (Db.empty : Db asciiPlatform) 1)
    ([.begin 0 threatenedSample.toJournal, .commit 0 (sampleEnv 1), .tick 2,
      .begin 1 replacedSample.toJournal, .commit 1 (sampleEnv 2),
      .relay (.fetchBatch 0 [0, 1, 2, 3, 4, 6, 5])] ++
        (List.replicate 7 handleNextRow).flatten ++ [.relay (.commit 0)])
    (fun site => sentRows site = [0, 1, 2, 3, 4, 6, 5])
    (by decide +kernel)
  refine ⟨site, reached, fun inOrder => ?_⟩
  have sorted : (sentRows site).Pairwise (· ≤ ·) := List.pairwise_map.mpr inOrder
  rw [of_decide_eq_true disordered] at sorted
  revert sorted
  decide

end EliteHubVault
