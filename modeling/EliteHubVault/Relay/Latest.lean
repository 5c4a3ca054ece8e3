import EliteHubVault.Library.Ranking
import EliteHubVault.Lifecycle.Signals
import EliteHubVault.Relay.Provenance

/-!
# The last that is published

A reader picks signals from some rows of the outbox. When one loop at a time has a batch, and
the rows with a signal have increasing times, the loop takes them in the order of insertion:
those that are removed and those of the batch are the first ones (`Relay.Latest`). A batch that
fails is published again, from its first row. So the last publication with a signal is never
before a row that is handled, and once all rows are removed it is of the last row
(`Relay.Latest.getLast?_shownRows`).
-/

set_option autoImplicit false
set_option linter.unusedSectionVars false

namespace EliteHubVault

open Library

variable {K ν : Type}

/-! ## Rows with a signal -/

/-- What a reader picks from a row. -/
def signalAt (read : OutboxInsert K → Option ν) (outbox : List (OutboxRow K)) (row : ℕ) : Option ν :=
  outbox[row]?.bind fun row => read row.toOutboxInsert

/-- The rows from which a reader picks a signal. -/
def signalRows (read : OutboxInsert K → Option ν) (outbox : List (OutboxRow K)) : List ℕ :=
  (List.range outbox.length).filter fun row => (signalAt read outbox row).isSome

/-- The times of the rows with a signal increase. -/
def InTime (read : OutboxInsert K → Option ν) (outbox : List (OutboxRow K)) : Prop :=
  (signalRows read outbox).Pairwise fun row later =>
    createdAtOf outbox row < createdAtOf outbox later

instance (read : OutboxInsert K → Option ν) (outbox : List (OutboxRow K)) :
    Decidable (InTime read outbox) := inferInstanceAs (Decidable (List.Pairwise _ _))

section Rows

variable {read : OutboxInsert K → Option ν} {outbox : List (OutboxRow K)} {row : ℕ}

theorem mem_signalRows : row ∈ signalRows read outbox ↔ (signalAt read outbox row).isSome := by
  rw [signalRows, List.mem_filter, List.mem_range, and_iff_right_iff_imp]
  intro shows
  by_contra outside
  rw [signalAt, List.getElem?_eq_none (Nat.le_of_not_lt outside)] at shows
  cases shows

theorem pairwise_signalRows : (signalRows read outbox).Pairwise (· < ·) :=
  List.pairwise_lt_range.filter _

theorem nodup_signalRows : (signalRows read outbox).Nodup := List.nodup_range.filter _

/-- A row that was there keeps its signal. -/
theorem signalAt_append (inside : row < outbox.length) (inserted : List (OutboxRow K)) :
    signalAt read (outbox ++ inserted) row = signalAt read outbox row := by
  rw [signalAt, signalAt, List.getElem?_append_left inside]

theorem createdAtOf_append (inside : row < outbox.length) (inserted : List (OutboxRow K)) :
    createdAtOf (outbox ++ inserted) row = createdAtOf outbox row := by
  rw [createdAtOf, createdAtOf, List.getElem?_append_left inside]

theorem filter_signalAt_append {rows : List ℕ} (inside : ∀ row ∈ rows, row < outbox.length)
    (inserted : List (OutboxRow K)) :
    rows.filter (fun row => (signalAt read (outbox ++ inserted) row).isSome) =
      rows.filter fun row => (signalAt read outbox row).isSome :=
  List.filter_congr fun row member => by rw [signalAt_append (inside row member)]

/-- New rows come after those that are there. -/
theorem signalRows_append (inserted : List (OutboxRow K)) :
    signalRows read outbox <+: signalRows read (outbox ++ inserted) := by
  rw [signalRows, signalRows, List.length_append, List.range_add, List.filter_append,
    filter_signalAt_append fun row member => List.mem_range.mp member]
  exact List.prefix_append _ _

/-- The signals of the rows, in order. -/
theorem filterMap_signalRows : ∀ outbox : List (OutboxRow K),
    (signalRows read outbox).filterMap (signalAt read outbox) =
      (outbox.map OutboxRow.toOutboxInsert).filterMap read := by
  intro outbox
  induction outbox using List.reverseRecOn with
  | nil => rfl
  | append_singleton earlier row ih =>
      have last : signalAt read (earlier ++ [row]) earlier.length = read row.toOutboxInsert := by
        simp [signalAt]
      have kept : (signalRows read earlier).filterMap (signalAt read (earlier ++ [row])) =
          (signalRows read earlier).filterMap (signalAt read earlier) :=
        List.filterMap_congr fun other member =>
          signalAt_append (List.mem_range.mp (List.mem_filter.mp member).1) _
      have grown : signalRows read (earlier ++ [row]) = signalRows read earlier ++
          [earlier.length].filter fun row_ => (signalAt read (earlier ++ [row]) row_).isSome := by
        rw [signalRows, List.length_append, List.length_singleton, List.range_succ,
          List.filter_append, filter_signalAt_append fun other member => List.mem_range.mp member]
        rfl
      rw [grown, List.filterMap_append, kept, ih, List.map_append, List.filterMap_append]
      congr 1
      cases picked : read row.toOutboxInsert with
      | none => simp [last, picked]
      | some signal => simp [last, picked]

/-- The last signal is the one of the last row that has one. -/
theorem getLast?_filterMap_outbox :
    ((outbox.map OutboxRow.toOutboxInsert).filterMap read).getLast? =
      (signalRows read outbox).getLast?.bind (signalAt read outbox) := by
  rw [← filterMap_signalRows]
  obtain none_ | ⟨earlier, last, same⟩ := List.eq_nil_or_concat (signalRows read outbox)
  · rw [none_]
    rfl
  · have shows : (signalAt read outbox last).isSome := mem_signalRows.mp (by rw [same]; simp)
    obtain ⟨signal, picked⟩ := Option.isSome_iff_exists.mp shows
    rw [same, List.concat_eq_append, List.filterMap_append, List.getLast?_concat]
    simp [picked]

theorem InTime.of_append {inserted : List (OutboxRow K)}
    (inTime : InTime read (outbox ++ inserted)) : InTime read outbox := by
  refine (inTime.sublist (signalRows_append inserted).sublist).imp_of_mem ?_
  intro row later member memberLater before
  have inside := List.mem_range.mp (List.mem_filter.mp member).1
  have insideLater := List.mem_range.mp (List.mem_filter.mp memberLater).1
  rwa [createdAtOf_append inside, createdAtOf_append insideLater] at before

end Rows

/-! ## The relay -/

namespace Relay

/-- The publications of rows with a signal, by their rows. -/
def shownRows (read : OutboxInsert K → Option ν) (outbox : List (OutboxRow K)) (relay : Relay K) :
    List ℕ :=
  relay.publishedRows.filter fun row => (signalAt read outbox row).isSome

/-- A loop begins a batch when no other loop has one. -/
def TakesTurns (relay : Relay K) : RelayAction → Prop
  | .fetchBatch _ _ => relay.batches.keys = []
  | _ => True

instance (relay : Relay K) : (action : RelayAction) → Decidable (relay.TakesTurns action)
  | .fetchBatch _ _ => inferInstanceAs (Decidable (relay.batches.keys = []))
  | .prepareRow _ => .isTrue trivial
  | .publish _ => .isTrue trivial
  | .deleteOutboxRow _ => .isTrue trivial
  | .commit _ => .isTrue trivial
  | .fail _ => .isTrue trivial

/-- None of the rows with a signal is after the last publication with one. -/
def Tells (read : OutboxInsert K → Option ν) (outbox : List (OutboxRow K)) (relay : Relay K)
    (rows : List ℕ) : Prop :=
  ∀ row ∈ rows, (signalAt read outbox row).isSome →
    ∃ last, (relay.shownRows read outbox).getLast? = some last ∧ row ≤ last

/-- **The invariant.** The rows with a signal that are removed, and then those of the batch, are
the first ones, and what is handled is not after the last publication. -/
structure Latest (read : OutboxInsert K → Option ν) (outbox : List (OutboxRow K))
    (relay : Relay K) : Prop where
  alone : ∀ loop other batch otherBatch, relay.batches.get loop = some batch →
    relay.batches.get other = some otherBatch → loop = other
  removed : relay.removedRows.filter (fun row => (signalAt read outbox row).isSome) <+:
    signalRows read outbox
  taken : ∀ loop batch, relay.batches.get loop = some batch →
    (relay.removedRows ++ batch.rows).filter (fun row => (signalAt read outbox row).isSome) <+:
      signalRows read outbox
  told : relay.Tells read outbox relay.removedRows
  handled : ∀ loop batch, relay.batches.get loop = some batch →
    relay.Tells read outbox batch.handledRows
  prepared : ∀ loop batch handling remaining, relay.batches.get loop = some batch →
    batch.stage = .prepared handling remaining → (signalAt read outbox handling.row).isSome →
      remaining = handling.result.targets ∨
        (relay.shownRows read outbox).getLast? = some handling.row

namespace Latest

variable {read : OutboxInsert K → Option ν} {outbox : List (OutboxRow K)} {relay relay' : Relay K}

theorem empty : Latest read outbox (.empty : Relay K) where
  alone _ _ _ _ found := by cases found
  removed := List.nil_prefix
  taken _ _ found := by cases found
  told _ member := absurd member List.not_mem_nil
  handled _ _ found := by cases found
  prepared _ _ _ _ found := by cases found

theorem append (latest : Latest read outbox relay) (sound : relay.Sound outbox)
    (inserted : List (OutboxRow K)) : Latest read (outbox ++ inserted) relay := by
  have removedInside : ∀ row ∈ relay.removedRows, row < outbox.length := fun row member => by
    obtain ⟨removal, listed, rfl⟩ := List.mem_map.mp member
    exact (sound.removed removal listed).1.inside
  have batchInside : ∀ loop batch, relay.batches.get loop = some batch → ∀ row ∈ batch.rows,
      row < outbox.length := fun loop batch found => (sound.rows loop batch found).2.2
  have shown : relay.shownRows read (outbox ++ inserted) = relay.shownRows read outbox :=
    filter_signalAt_append (fun row member => by
      obtain ⟨publication, logged, rfl⟩ := List.mem_map.mp member
      exact sound.inserted publication logged) inserted
  have tells : ∀ rows : List ℕ, (∀ row ∈ rows, row < outbox.length) →
      relay.Tells read outbox rows → relay.Tells read (outbox ++ inserted) rows := by
    intro rows inside told row member shows
    rw [signalAt_append (inside row member)] at shows
    rw [shown]
    exact told row member shows
  constructor
  · exact latest.alone
  · rw [filter_signalAt_append removedInside]
    exact latest.removed.trans (signalRows_append inserted)
  · intro loop batch found
    rw [filter_signalAt_append fun row member => (List.mem_append.mp member).elim
      (removedInside row) (batchInside loop batch found row)]
    exact (latest.taken loop batch found).trans (signalRows_append inserted)
  · exact tells _ removedInside latest.told
  · exact fun loop batch found => tells _ (fun row member =>
      batchInside loop batch found row (List.mem_append_left _ member))
        (latest.handled loop batch found)
  · intro loop batch handling remaining found stage shows
    obtain ⟨-, answers, -⟩ := (sound.batches loop batch found).prepared handling remaining stage
    rw [signalAt_append answers.inside] at shows
    rw [shown]
    exact latest.prepared loop batch handling remaining found stage shows

/-- The loop that has the batch goes on with it. -/
theorem setBatch (latest : Latest read outbox relay) {loop : ℕ} {batch : Batch K}
    (others : ∀ other otherBatch, relay.batches.get other = some otherBatch → other = loop)
    (taken : (relay.removedRows ++ batch.rows).filter
      (fun row => (signalAt read outbox row).isSome) <+: signalRows read outbox)
    (handled : relay.Tells read outbox batch.handledRows)
    (prepared : ∀ handling remaining, batch.stage = .prepared handling remaining →
      (signalAt read outbox handling.row).isSome → remaining = handling.result.targets ∨
        (relay.shownRows read outbox).getLast? = some handling.row) :
    Latest read outbox (relay.setBatch loop batch) := by
  have only : ∀ {other : ℕ} {otherBatch : Batch K},
      (relay.setBatch loop batch).batches.get other = some otherBatch →
        other = loop ∧ otherBatch = batch := by
    intro other otherBatch found
    rw [Relay.setBatch, OrderedMap.get_set] at found
    split at found
    · rename_i same
      exact ⟨same, (Option.some.inj found).symm⟩
    · rename_i different
      exact absurd (others other otherBatch found) different
  constructor
  · intro first second firstBatch secondBatch found foundSecond
    rw [(only found).1, (only foundSecond).1]
  · exact latest.removed
  · intro other otherBatch found
    rw [(only found).2]
    exact taken
  · exact latest.told
  · intro other otherBatch found
    rw [(only found).2]
    exact handled
  · intro other otherBatch handling remaining found stage shows
    rw [(only found).2] at stage
    exact prepared handling remaining stage shows

/-- The loop that has the batch ends it. -/
theorem delete (latest : Latest read outbox relay) {loop : ℕ} {batch : Batch K}
    (found : relay.batches.get loop = some batch) {removed : List (Removal K)}
    (prefix_ : (removed.map fun removal => removal.row).filter
      (fun row => (signalAt read outbox row).isSome) <+: signalRows read outbox)
    (told : relay.Tells read outbox (removed.map fun removal => removal.row)) :
    Latest read outbox { relay with batches := relay.batches.delete loop, removed } := by
  have none_ : ∀ other otherBatch, (relay.batches.delete loop).get other ≠ some otherBatch := by
    intro other otherBatch foundOther
    obtain ⟨different, foundOther⟩ := OrderedMap.get_of_get_delete foundOther
    exact different (latest.alone other loop otherBatch batch foundOther found)
  exact ⟨fun first _ firstBatch _ foundFirst => absurd foundFirst (none_ first firstBatch), prefix_,
    fun other otherBatch foundOther => absurd foundOther (none_ other otherBatch), told,
    fun other otherBatch foundOther => absurd foundOther (none_ other otherBatch),
    fun other otherBatch _ _ foundOther => absurd foundOther (none_ other otherBatch)⟩

/-- What is fetched are the first rows that are left. -/
theorem prefix_of_fetch (latest : Latest read outbox relay) (inTime : InTime read outbox)
    (idle : relay.batches.keys = []) {rows : List ℕ}
    (fetch : IsFetch outbox (relay.available outbox) rows) :
    (relay.removedRows ++ rows).filter (fun row => (signalAt read outbox row).isSome) <+:
      signalRows read outbox := by
  obtain ⟨left, split⟩ := latest.removed
  have unlocked : ∀ row, row ∉ relay.locked := fun row member => by
    obtain ⟨loop, batch, found, -⟩ := mem_locked_iff.mp member
    have known : loop ∈ relay.batches.keys := OrderedMap.get_isSome_iff.mp (by rw [found]; rfl)
    rw [idle] at known
    exact absurd known List.not_mem_nil
  have isLeft : ∀ row, row ∈ left ↔
      row ∉ relay.removedRows ∧ (signalAt read outbox row).isSome := by
    intro row
    rw [← mem_signalRows, ← split, List.mem_append, List.mem_filter]
    have apart := (List.nodup_append'.mp (split ▸ nodup_signalRows : (_ ++ left).Nodup)).2.2
    constructor
    · intro member
      refine ⟨fun removed => ?_, .inr member⟩
      have shows : (signalAt read outbox row).isSome :=
        mem_signalRows.mp (split ▸ List.mem_append_right _ member)
      exact apart (List.mem_filter.mpr ⟨removed, shows⟩) member
    · rintro ⟨kept, removed | member⟩
      · exact absurd removed.1 kept
      · exact member
  obtain ⟨once, available, -, byTime, complete⟩ := fetch
  rw [InTime, ← split] at inTime
  rw [List.filter_append, ← split]
  refine (List.prefix_append_right_inj _).mpr (isPrefix_of_chosen (createdAtOf outbox)
    (List.pairwise_append.mp inTime).2.1 (once.filter _) (byTime.filter _)
    (fun row member => ?_) fun row member other inLeft before => ?_)
  · obtain ⟨inRows, shows⟩ := List.mem_filter.mp member
    exact (isLeft row).mpr ⟨(mem_available.mp (available row inRows)).2.1, shows⟩
  · obtain ⟨kept, shows⟩ := (isLeft other).mp inLeft
    refine List.mem_filter.mpr ⟨?_, shows⟩
    by_contra passed
    have inside := List.mem_range.mp (List.mem_filter.mp (mem_signalRows.mpr shows)).1
    exact absurd before (complete row (List.mem_filter.mp member).1 other
      (mem_available.mpr ⟨inside, kept, unlocked other⟩) passed).not_gt

/-- After the next row of a batch is published, no row before it is missing. -/
theorem tells_publish {rows : List ℕ} {todo : List ℕ} (publication : Publication K)
    (taken : (relay.removedRows ++ (rows ++ publication.row :: todo)).filter
      (fun row => (signalAt read outbox row).isSome) <+: signalRows read outbox)
    (removed : relay.Tells read outbox relay.removedRows)
    (handled : relay.Tells read outbox rows) :
    Tells read outbox { relay with published := relay.published ++ [publication] }
        (relay.removedRows ++ rows) ∧
      ((signalAt read outbox publication.row).isSome →
        (shownRows read outbox { relay with published := relay.published ++ [publication] }).getLast? =
          some publication.row) := by
  have grown : shownRows read outbox { relay with published := relay.published ++ [publication] } =
      relay.shownRows read outbox ++
        [publication.row].filter fun row => (signalAt read outbox row).isSome := by
    simp [shownRows, publishedRows, List.filter_append]
  by_cases shows : (signalAt read outbox publication.row).isSome
  · have last : (shownRows read outbox
        { relay with published := relay.published ++ [publication] }).getLast? =
          some publication.row := by
      rw [grown, List.filter_singleton, shows, cond_true, List.getLast?_concat]
    refine ⟨fun row member showsRow => ⟨_, last, ?_⟩, fun _ => last⟩
    have sorted := pairwise_signalRows.sublist taken.sublist
    rw [← List.append_assoc, List.filter_append] at sorted
    refine ((List.pairwise_append.mp sorted).2.2 row (List.mem_filter.mpr ⟨member, showsRow⟩)
      publication.row ?_).le
    exact List.mem_filter.mpr ⟨List.mem_cons_self, shows⟩
  · have same : shownRows read outbox
        { relay with published := relay.published ++ [publication] } =
          relay.shownRows read outbox := by
      rw [grown, List.filter_singleton, Bool.eq_false_iff.mpr shows, cond_false, List.append_nil]
    refine ⟨fun row member showsRow => ?_, fun present => absurd present shows⟩
    rw [same]
    rcases List.mem_append.mp member with old | new
    · exact removed row old showsRow
    · exact handled row new showsRow

/-- **A step keeps it**, when loops take turns, the times increase and every row with a signal has
a target. -/
theorem step {powers : List SystemPowerplayPowerRow} {action : RelayAction}
    (latest : Latest read outbox relay) (sound : relay.Sound outbox) (inTime : InTime read outbox)
    (answered : ∀ handling : HandledRow K, handling.Answers outbox →
      (signalAt read outbox handling.row).isSome → handling.result.targets ≠ [])
    (turn : relay.TakesTurns action) (taken : relay.Step outbox powers action relay') :
    Latest read outbox relay' := by
  cases taken with
  | @fetchBatch loop rows idle fetch =>
      have nobody : ∀ other otherBatch, relay.batches.get other ≠ some otherBatch := by
        intro other otherBatch found
        have known : other ∈ relay.batches.keys := OrderedMap.get_isSome_iff.mp (by rw [found]; rfl)
        rw [show relay.batches.keys = [] from turn] at known
        exact absurd known List.not_mem_nil
      refine latest.setBatch (fun other otherBatch found => absurd found (nobody other otherBatch))
        (latest.prefix_of_fetch inTime turn fetch) (fun row member => ?_)
        fun handling remaining stage => ?_
      · exact absurd member List.not_mem_nil
      · cases stage
  | @prepareRow loop row rest handled outboxRow result found stored prepared =>
      refine latest.setBatch (fun other otherBatch foundOther =>
        latest.alone other loop otherBatch _ foundOther found)
        (latest.taken loop ⟨row :: rest, .fetched, handled⟩ found)
        (latest.handled loop ⟨row :: rest, .fetched, handled⟩ found)
        fun handling remaining stage shows => ?_
      cases stage
      exact .inl rfl
  | @publish loop todo handling target remaining handled found =>
      obtain ⟨first, answers, -⟩ := (sound.batches loop _ found).prepared handling _ rfl
      obtain ⟨rest, rfl⟩ : ∃ rest, todo = handling.row :: rest := by
        cases todo with
        | nil => cases first
        | cons row rest =>
            cases first
            exact ⟨rest, rfl⟩
      obtain ⟨tells, last⟩ := tells_publish ⟨handling.row, target⟩
        (latest.taken loop _ found) latest.told (latest.handled loop _ found)
      have published : Latest read outbox
          { relay with published := relay.published ++ [⟨handling.row, target⟩] } := by
        refine ⟨latest.alone, latest.removed, latest.taken,
          fun row member => tells row (List.mem_append_left _ member),
          fun other otherBatch foundOther => ?_,
          fun other otherBatch otherHandling left foundOther stage shows => ?_⟩
        · obtain rfl := latest.alone other loop otherBatch _ foundOther found
          cases found.symm.trans foundOther
          exact fun row member => tells row (List.mem_append_right _ member)
        · obtain rfl := latest.alone other loop otherBatch _ foundOther found
          cases found.symm.trans foundOther
          cases stage
          exact .inr (last shows)
      refine published.setBatch (fun other otherBatch foundOther =>
        latest.alone other loop otherBatch _ foundOther found)
        (latest.taken loop ⟨_, .prepared handling (target :: remaining), handled⟩ found)
        (fun row member => tells row (List.mem_append_right _ member))
        fun other left stage shows => ?_
      cases stage
      exact .inr (last shows)
  | @deleteOutboxRow loop row rest handling handled found =>
      obtain ⟨first, answers, -⟩ := (sound.batches loop _ found).prepared handling _ rfl
      cases first
      refine latest.setBatch (fun other otherBatch foundOther =>
        latest.alone other loop otherBatch _ foundOther found) ?_ (fun row member shows => ?_)
        fun other left stage => ?_
      · have same : Batch.rows ⟨rest, .fetched, handled ++ [handling]⟩ =
            Batch.rows ⟨handling.row :: rest, .prepared handling [], handled⟩ := by
          simp [Batch.rows, Batch.handledRows]
        rw [same]
        exact latest.taken loop _ found
      · rw [Batch.handledRows, List.map_append, List.mem_append] at member
        rcases member with old | new
        · exact latest.handled loop _ found row old shows
        · obtain rfl := List.mem_singleton.mp new
          rcases latest.prepared loop _ handling [] found rfl shows with none_ | last
          · exact absurd none_.symm (answered handling answers shows)
          · exact ⟨handling.row, last, le_refl _⟩
      · cases stage
  | @commit loop handled found =>
      have rows : (relay.removed ++ handled.map fun handled =>
          ({ handled with publishedBefore := relay.published.length } : Removal K)).map
            (fun removal => removal.row) = relay.removedRows ++ handled.map HandledRow.row :=
        removedRows_commit relay (relay.batches.delete loop) handled
      refine latest.delete found ?_ fun row member => ?_
      · rw [rows]
        have taken := latest.taken loop _ found
        rwa [Batch.rows, List.append_nil] at taken
      · rw [rows] at member
        rcases List.mem_append.mp member with old | new
        · exact latest.told row old
        · exact latest.handled loop _ found row new
  | fail found => exact latest.delete found latest.removed latest.told

/-- **Once all rows with a signal are removed, the last publication is of the last of them.** -/
theorem getLast?_shownRows (latest : Latest read outbox relay)
    (drained : ∀ row ∈ signalRows read outbox, row ∈ relay.removedRows) :
    (relay.shownRows read outbox).getLast? = (signalRows read outbox).getLast? := by
  obtain none_ | ⟨earlier, row, same⟩ := List.eq_nil_or_concat (signalRows read outbox)
  · have nothing : relay.shownRows read outbox = [] := by
      refine List.eq_nil_iff_forall_not_mem.mpr fun row member => ?_
      have shows := mem_signalRows.mpr (List.mem_filter.mp member).2
      rw [none_] at shows
      exact absurd shows List.not_mem_nil
    rw [nothing, none_]
  · rw [List.concat_eq_append] at same
    have member : row ∈ signalRows read outbox := by rw [same]; simp
    obtain ⟨last, published, notAfter⟩ := latest.told row (drained row member)
      (mem_signalRows.mp member)
    have shown : last ∈ signalRows read outbox :=
      mem_signalRows.mpr (List.mem_filter.mp (List.mem_of_getLast? published)).2
    have sorted : (signalRows read outbox).Pairwise (· < ·) := pairwise_signalRows
    rw [same] at shown sorted
    obtain rfl : last = row := by
      rcases List.mem_append.mp shown with before | here
      · have := (List.pairwise_append.mp sorted).2.2 last before row List.mem_cons_self
        omega
      · exact List.mem_singleton.mp here
    rw [published, same, List.getLast?_concat]

end Latest

end Relay

/-! ## Readers of the outbox and of the publications -/

/-- What a reader picks from a row is what a listener picks from its targets, and there are
some. -/
structure Relayed (read : OutboxInsert K → Option ν) (hear : RealtimePayload K → Option ν) :
    Prop where
  answered : ∀ {powers : List SystemPowerplayPowerRow} {row : OutboxRow K}
    {result : RowHandlingResult K}, prepareRowForPublishing powers row = .ok result →
      (read row.toOutboxInsert).isSome → result.targets ≠ []
  heard : ∀ {powers : List SystemPowerplayPowerRow} {row : OutboxRow K}
    {result : RowHandlingResult K}, prepareRowForPublishing powers row = .ok result →
      ∀ target ∈ result.targets, hear target.payload = read row.toOutboxInsert

namespace Relayed

variable {read : OutboxInsert K → Option ν} {hear : RealtimePayload K → Option ν}
  {outbox : List (OutboxRow K)}

theorem signalAt_eq {handling : HandledRow K} {outboxRow : OutboxRow K}
    (stored : outbox[handling.row]? = some outboxRow) :
    signalAt read outbox handling.row = read outboxRow.toOutboxInsert := by
  rw [signalAt, stored]
  rfl

theorem targets_ne_nil (relayed : Relayed read hear) {handling : HandledRow K}
    (answers : handling.Answers outbox) (shows : (signalAt read outbox handling.row).isSome) :
    handling.result.targets ≠ [] := by
  obtain ⟨outboxRow, stored, prepared⟩ := answers
  rw [signalAt_eq stored] at shows
  exact relayed.answered prepared shows

/-- A publication says what its row says. -/
theorem hear_publication (relayed : Relayed read hear) {publication : Publication K}
    (comes : publication.ComesFrom outbox) :
    hear publication.target.payload = signalAt read outbox publication.row := by
  obtain ⟨handling, row, ⟨outboxRow, stored, prepared⟩, member⟩ := comes
  rw [relayed.heard prepared _ member, ← row, signalAt_eq stored]

/-- The last publication that says anything is the last one of a row with a signal. -/
theorem getLast?_heard (relayed : Relayed read hear) {relay : Relay K}
    (traced : relay.Traced outbox) :
    (relay.published.filterMap fun publication => hear publication.target.payload).getLast? =
      (relay.shownRows read outbox).getLast?.bind (signalAt read outbox) := by
  have comes := traced.published
  rw [Relay.shownRows, Relay.publishedRows]
  generalize relay.published = published at comes
  induction published using List.reverseRecOn with
  | nil => rfl
  | append_singleton earlier publication ih =>
      have picked := relayed.hear_publication (comes publication (by simp))
      rw [List.filterMap_append, List.map_append, List.filter_append, List.map_singleton,
        List.filter_singleton]
      cases signal : signalAt read outbox publication.row with
      | none =>
          rw [signal] at picked
          simpa [picked] using ih fun other member => comes other (List.mem_append_left _ member)
      | some value =>
          rw [signal] at picked
          simp [picked, signal]

end Relayed

/-- A reader of one type of events, other than powerplay updates. -/
theorem relayed_of_built (eventType : RealtimeEventType) {read : OutboxInsert K → Option ν}
    {hear : RealtimePayload K → Option ν} (other : eventType ≠ .systemPowerplayUpdated)
    (silent : ∀ event : OutboxInsert K, event.eventType ≠ eventType.text → read event = none)
    (deaf : ∀ payload, payload.eventType ≠ eventType → hear payload = none)
    (built : ∀ (row : OutboxRow K) built, row.eventType = eventType.text →
      buildPublishTargetsForOutboxRow eventType.text row.payload row.createdAt none = .ok built →
        ((read row.toOutboxInsert).isSome → built.getD [] ≠ []) ∧
          ∀ target ∈ built.getD [], hear target.payload = read row.toOutboxInsert) :
    Relayed read hear := by
  have own : ∀ {powers : List SystemPowerplayPowerRow} {row : OutboxRow K}
      {result : RowHandlingResult K}, row.eventType = eventType.text →
      prepareRowForPublishing powers row = .ok result →
        ((read row.toOutboxInsert).isSome → result.targets ≠ []) ∧
          ∀ target ∈ result.targets, hear target.payload = read row.toOutboxInsert := by
    intro powers row result type prepared
    have type' : row.eventType ≠ systemPowerplayUpdatedEvent := fun powerplay =>
      other (RealtimeEventType.text_inj.mp (type.symm.trans powerplay))
    obtain ⟨found, made, targets⟩ := targets_of_prepared type' prepared
    rw [type] at made
    rw [targets]
    exact built row found type made
  refine ⟨fun {powers row result} prepared shows => ?_,
    fun {powers row result} prepared target member => ?_⟩
  · by_cases type : row.eventType = eventType.text
    · exact (own type prepared).1 shows
    · rw [silent _ type] at shows
      cases shows
  · by_cases type : row.eventType = eventType.text
    · exact (own type prepared).2 target member
    · obtain ⟨powerIds, targets, inTargets, found⟩ := built_of_prepared prepared member
      have sameType := (publishTargets_addressed found inTargets).2
      rw [silent _ type, deaf]
      exact fun same => type (sameType.symm.trans (congrArg RealtimeEventType.text same))

/-! ## Sites -/

namespace Site

variable [Field K] [LinearOrder K] {P : Platform K} {site site' settled : Site P}
  {read : OutboxInsert K → Option ν} {hear : RealtimePayload K → Option ν}

/-- A loop begins a batch when no other loop has one. -/
def TakesTurns (site : Site P) : SiteAction K → Prop
  | .relay action => site.relay.TakesTurns action
  | _ => True

instance (site : Site P) : (action : SiteAction K) → Decidable (site.TakesTurns action)
  | .relay action => inferInstanceAs (Decidable (site.relay.TakesTurns action))
  | .tick _ => .isTrue trivial
  | .begin _ _ => .isTrue trivial
  | .commit _ _ => .isTrue trivial
  | .rollback _ => .isTrue trivial

/-- **What holds of a site whose loops take turns**, with the rows of a reader in time. -/
structure Orderly (read : OutboxInsert K → Option ν) (site : Site P) : Prop where
  consistent : site.Consistent
  traced : site.relay.Traced site.db.eventOutbox
  latest : InTime read site.db.eventOutbox → site.relay.Latest read site.db.eventOutbox

theorem orderly_start {db : Db P} (reachable : WorkerReachable db) (clock : Timestamp) :
    (start db clock).Orderly read where
  consistent := ⟨reachable, .empty⟩
  traced := ⟨fun _ member => absurd member List.not_mem_nil,
    fun _ _ _ _ found => absurd found (Option.some_ne_none _).symm⟩
  latest _ := .empty

theorem Orderly.step (orderly : site.Orderly read) (relayed : Relayed read hear)
    {action : SiteAction K} (turn : site.TakesTurns action)
    (taken : site.next action = some site') : site'.Orderly read := by
  obtain ⟨consistent, inserted, grown⟩ := orderly.consistent.step taken
  refine ⟨consistent, traced_next orderly.traced taken, fun inTime => ?_⟩
  obtain same | ⟨relayAction, rfl, stepped⟩ := relay_of_next taken
  · rw [same, grown]
    rw [grown] at inTime
    exact (orderly.latest inTime.of_append).append orderly.consistent.relay inserted
  · obtain ⟨relay, -, rfl⟩ := Option.map_eq_some_iff.mp taken
    exact (orderly.latest inTime).step orderly.consistent.relay inTime
      (fun handling answers shows => relayed.targets_ne_nil answers shows) turn stepped

/-- What is told of a state in which nothing has been told since. -/
theorem Orderly.getLast?_signals_of_silent (orderly : site.Orderly read)
    (relayed : Relayed read hear) (inTime : InTime read site.db.eventOutbox)
    (drained : ∀ row ∈ signalRows read site.db.eventOutbox, row ∈ site.relay.removedRows)
    (before : settled.Orderly read) {inserted : List (OutboxRow K)}
    (outbox : settled.db.eventOutbox ++ inserted = site.db.eventOutbox)
    {since : List (Publication K)} (published : settled.relay.published ++ since =
      site.relay.published)
    (silent : since.filterMap (fun publication => hear publication.target.payload) = []) :
    (signalRows read settled.db.eventOutbox).getLast? =
      (signalRows read site.db.eventOutbox).getLast? := by
  have unshown : (since.map Publication.row).filter
      (fun row => (signalAt read site.db.eventOutbox row).isSome) = [] := by
    refine List.filter_eq_nil_iff.mpr fun row member => ?_
    obtain ⟨publication, listed, rfl⟩ := List.mem_map.mp member
    have comes := orderly.traced.published publication
      (published ▸ List.mem_append_right _ listed)
    rw [← relayed.hear_publication comes, List.filterMap_eq_nil_iff.mp silent publication listed]
    exact Bool.false_ne_true
  have shown : site.relay.shownRows read site.db.eventOutbox =
      settled.relay.shownRows read settled.db.eventOutbox := by
    rw [Relay.shownRows, Relay.publishedRows, ← published, List.map_append, List.filter_append,
      unshown, List.append_nil, ← outbox]
    refine filter_signalAt_append (fun row member => ?_) inserted
    obtain ⟨publication, listed, rfl⟩ := List.mem_map.mp member
    exact before.consistent.relay.inserted publication listed
  have last := (orderly.latest inTime).getLast?_shownRows drained
  rw [shown] at last
  obtain ⟨more, grown⟩ : signalRows read settled.db.eventOutbox <+:
      signalRows read site.db.eventOutbox := outbox ▸ signalRows_append inserted
  rw [← last]
  cases final : (settled.relay.shownRows read settled.db.eventOutbox).getLast? with
  | none =>
      rw [final, eq_comm, List.getLast?_eq_none_iff] at last
      rw [last] at grown
      rw [(List.append_eq_nil_iff.mp grown).1]
      rfl
  | some row =>
      have known : row ∈ signalRows read settled.db.eventOutbox :=
        mem_signalRows.mpr (List.mem_filter.mp (List.mem_of_getLast? final)).2
      have apart := (List.nodup_append'.mp (grown ▸ nodup_signalRows :
        (signalRows read settled.db.eventOutbox ++ more).Nodup)).2.2
      rw [final, ← grown] at last
      obtain rfl : more = [] := by
        obtain none_ | ⟨earlier, latest, same⟩ := List.eq_nil_or_concat more
        · exact none_
        · rw [List.concat_eq_append] at same
          subst same
          rw [← List.append_assoc, List.getLast?_concat] at last
          cases last
          exact absurd (by simp) (apart known)
      rw [List.append_nil] at last
      exact last.symm

/-- **The last that is told since is the last that is known.** When all rows with a signal are
removed, the last signal of the database is the last one that was published since an earlier
state, or was the last one in that state. -/
theorem Orderly.getLast?_signals (orderly : site.Orderly read) (relayed : Relayed read hear)
    (inTime : InTime read site.db.eventOutbox)
    (drained : ∀ row ∈ signalRows read site.db.eventOutbox, row ∈ site.relay.removedRows)
    (before : settled.Orderly read) (outbox : settled.db.eventOutbox <+: site.db.eventOutbox)
    (published : settled.relay.published <+: site.relay.published) :
    (site.db.signals read).getLast? =
      ((site.relay.published.drop settled.relay.published.length).filterMap
        fun publication => hear publication.target.payload).getLast?.or
          (settled.db.signals read).getLast? := by
  obtain ⟨inserted, outbox⟩ := outbox
  obtain ⟨since, published⟩ := published
  rw [← published, List.drop_left]
  have all := relayed.getLast?_heard orderly.traced
  rw [(orderly.latest inTime).getLast?_shownRows drained, ← published, List.filterMap_append,
    List.getLast?_append] at all
  cases told : (since.filterMap fun publication =>
      hear publication.target.payload).getLast? with
  | some signal =>
      rw [told, Option.some_or] at all
      rw [Option.some_or, Db.signals, getLast?_filterMap_outbox, ← all]
  | none =>
      have same := orderly.getLast?_signals_of_silent relayed inTime drained before outbox published
        (List.getLast?_eq_none_iff.mp told)
      rw [Option.none_or, Db.signals, Db.signals, getLast?_filterMap_outbox,
        getLast?_filterMap_outbox, same]
      refine Option.bind_congr fun row last => ?_
      have known := List.mem_of_getLast? (same.trans last)
      rw [← outbox, signalAt_append (List.mem_range.mp (List.mem_filter.mp known).1)]

end Site

end EliteHubVault
