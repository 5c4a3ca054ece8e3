import EliteHubVault.Library.Runs

/-!
# Tables with unique constraints and the statements that change them

A table is a list of rows of which no two clash, where `clash` says that two
rows break a unique constraint. A statement computes the list of rows it leaves
and the changes it made, row by row, in the order in which it made them; the
changes are what row triggers and transition tables see. The statement fails
when the rows it would leave clash.

`updateRows`, `deleteRows` and `insertRows` are the plain statements.
`insertOrSkip` is `INSERT ... ON CONFLICT DO NOTHING`. `upsertRows` is
`INSERT ... ON CONFLICT (key) DO UPDATE SET ... WHERE ...`, which fails when it
would change a row that the same statement has inserted or updated.

The frame lemmas say that rows of a class no change mentions stay as they were
(`filter_updateRows`, `filter_deleteRows`, `filter_insertRows`,
`filter_upsertRows`). The settled lemmas say what an upsert leaves for each
proposed row (`upsertRows_settles`) and when a second one changes nothing that a
projection of the rows can see (`upsertRows_of_settled`).
-/

set_option autoImplicit false

namespace EliteHubVault.Library

variable {ρ κ π : Type*}

/-! ## Changes -/

/-- What a statement did to one row. -/
inductive Change (ρ : Type*) where
  | insert (new : ρ)
  | update (old new : ρ)
  | delete (old : ρ)

namespace Change

/-- The versions of the row that a change mentions. -/
def versions : Change ρ → List ρ
  | .insert new => [new]
  | .update old new => [old, new]
  | .delete old => [old]

/-- The version the row has after the statement. -/
def new? : Change ρ → Option ρ
  | .insert new => some new
  | .update _ new => some new
  | .delete _ => none

/-- The rows of the transition table `NEW TABLE` of an insert trigger. -/
def inserted? : Change ρ → Option ρ
  | .insert new => some new
  | _ => none

/-- The old and the new version of an updated row. -/
def updated? : Change ρ → Option (ρ × ρ)
  | .update old new => some (old, new)
  | _ => none

/-- The rows of the transition table `OLD TABLE` of a delete trigger. -/
def deleted? : Change ρ → Option ρ
  | .delete old => some old
  | _ => none

end Change

/-- No change mentions a row of the class `q`. -/
def Untouched (q : ρ → Bool) (changes : List (Change ρ)) : Prop :=
  ∀ change ∈ changes, ∀ row ∈ change.versions, q row = false

theorem Untouched.nil (q : ρ → Bool) : Untouched q [] := by
  intro change member
  cases member

theorem untouched_cons {q : ρ → Bool} {change : Change ρ} {changes : List (Change ρ)} :
    Untouched q (change :: changes) ↔
      (∀ row ∈ change.versions, q row = false) ∧ Untouched q changes := by
  simp [Untouched]

theorem untouched_append {q : ρ → Bool} {earlier later : List (Change ρ)} :
    Untouched q (earlier ++ later) ↔ Untouched q earlier ∧ Untouched q later := by
  simp only [Untouched, List.mem_append]
  exact ⟨fun h => ⟨fun c m => h c (.inl m), fun c m => h c (.inr m)⟩,
    fun h c m => m.elim (h.1 c) (h.2 c)⟩

/-! ## Statements on lists of rows -/

/-- `UPDATE ... SET set WHERE where_`. -/
def updateRows (where_ : ρ → Bool) (set : ρ → ρ) (rows : List ρ) : List ρ × List (Change ρ) :=
  (rows.map fun row => if where_ row then set row else row,
    (rows.filter where_).map fun row => .update row (set row))

/-- `DELETE ... WHERE where_`. -/
def deleteRows (where_ : ρ → Bool) (rows : List ρ) : List ρ × List (Change ρ) :=
  (rows.filter fun row => !where_ row, (rows.filter where_).map .delete)

/-- `INSERT ... VALUES`. -/
def insertRows (proposed rows : List ρ) : List ρ × List (Change ρ) :=
  (rows ++ proposed, proposed.map .insert)

section Keyed

variable [DecidableEq κ] (key : ρ → κ)

/-- `INSERT ... ON CONFLICT DO NOTHING`: a proposed row whose key is taken is skipped. -/
def insertOrSkip : List ρ → List ρ → List ρ × List (Change ρ)
  | [], rows => (rows, [])
  | proposed :: rest, rows =>
      if key proposed ∈ rows.map key then insertOrSkip rest rows
      else
        ((insertOrSkip rest (rows ++ [proposed])).1,
          .insert proposed :: (insertOrSkip rest (rows ++ [proposed])).2)

variable (set : ρ → ρ → ρ) (setWhere : ρ → ρ → Bool)

/-- One proposed row of an upsert. The flag of a row says that this statement has
inserted or updated it, in which case it cannot be changed a second time. -/
def upsertOne (proposed : ρ) : List (ρ × Bool) → Option (List (ρ × Bool) × List (Change ρ))
  | [] => some ([(proposed, true)], [.insert proposed])
  | (row, touched) :: rest =>
      if key row = key proposed then
        if touched then none
        else if setWhere row proposed then
          some ((set row proposed, true) :: rest, [.update row (set row proposed)])
        else some ((row, false) :: rest, [])
      else (upsertOne proposed rest).map fun result =>
        ((row, touched) :: result.1, result.2)

/-- The proposed rows of an upsert, in order. -/
def upsertAll : List ρ → List (ρ × Bool) → Option (List (ρ × Bool) × List (Change ρ))
  | [], rows => some (rows, [])
  | proposed :: rest, rows =>
      (upsertOne key set setWhere proposed rows).bind fun first =>
        (upsertAll rest first.1).map fun later => (later.1, first.2 ++ later.2)

/-- `INSERT ... ON CONFLICT (key) DO UPDATE SET set WHERE setWhere`. -/
def upsertRows (proposed rows : List ρ) : Option (List ρ × List (Change ρ)) :=
  (upsertAll key set setWhere proposed (rows.map fun row => (row, false))).map fun result =>
    (result.1.map Prod.fst, result.2)

end Keyed

/-! ## Tables -/

/-- A table: rows of which no two break a unique constraint. -/
structure Table (ρ : Type*) (clash : ρ → ρ → Prop) where
  rows : List ρ
  unique : rows.Pairwise fun row row' => ¬ clash row row'

namespace Table

variable {clash : ρ → ρ → Prop}

@[ext] theorem ext {table table' : Table ρ clash} (same : table.rows = table'.rows) :
    table = table' := by
  cases table
  cases table'
  cases same
  rfl

/-- The empty table. -/
def empty : Table ρ clash := ⟨[], List.Pairwise.nil⟩

@[simp] theorem rows_empty : (empty : Table ρ clash).rows = [] := rfl

/-- The table of these rows, when no two of them clash. -/
def ofRows? [DecidableRel clash] (rows : List ρ) : Option (Table ρ clash) :=
  if unique : rows.Pairwise fun row row' => ¬ clash row row' then some ⟨rows, unique⟩ else none

theorem rows_of_ofRows? [DecidableRel clash] {rows : List ρ} {table : Table ρ clash}
    (built : ofRows? rows = some table) : table.rows = rows := by
  unfold ofRows? at built
  split at built
  · cases built
    rfl
  · cases built

/-- The rows a statement leaves and its changes, or a broken constraint. -/
def write [DecidableRel clash] (outcome : List ρ × List (Change ρ)) :
    Option (Table ρ clash × List (Change ρ)) :=
  (ofRows? outcome.1).map fun table => (table, outcome.2)

theorem write_eq_some [DecidableRel clash] {outcome : List ρ × List (Change ρ)}
    {table : Table ρ clash} {changes : List (Change ρ)}
    (written : write outcome = some (table, changes)) : outcome = (table.rows, changes) := by
  obtain ⟨built, make, same⟩ := Option.map_eq_some_iff.mp written
  cases same
  rw [rows_of_ofRows? make]

/-- A statement that leaves no clash succeeds. -/
theorem write_of_pairwise [DecidableRel clash] {outcome : List ρ × List (Change ρ)}
    (unique : outcome.1.Pairwise fun row row' => ¬ clash row row') :
    write outcome = some (⟨outcome.1, unique⟩, outcome.2) := by
  rw [write, ofRows?, dif_pos unique, Option.map_some]

/-- An update leaves no clash when no two rows clash after it that did not before, and the
rows it writes clash with no other. -/
theorem pairwise_updateRows {where_ : ρ → Bool} {set : ρ → ρ} {rows : List ρ}
    (symmetric : ∀ row row', clash row row' → clash row' row)
    (unique : rows.Pairwise fun row row' => ¬ clash row row')
    (written : ∀ row ∈ rows, ∀ row' ∈ rows, where_ row = true → where_ row' = true →
      clash (set row) (set row') → clash row row')
    (apart : ∀ row ∈ rows, ∀ row' ∈ rows, where_ row = true → where_ row' = false →
      ¬ clash (set row) row') :
    (updateRows where_ set rows).1.Pairwise fun row row' => ¬ clash row row' := by
  refine List.pairwise_map.mpr (unique.imp_of_mem fun {row row'} member member' distinct => ?_)
  cases matched : where_ row <;> cases matched' : where_ row' <;>
    simp only [Bool.false_eq_true, if_false, if_true]
  · exact distinct
  · exact fun clashing => apart row' member' row member matched' matched (symmetric _ _ clashing)
  · exact apart row member row' member' matched matched'
  · exact fun clashing => distinct (written row member row' member' matched matched' clashing)

/-- An insertion of one row leaves no clash when the row clashes with none. -/
theorem pairwise_insertRows {proposed : ρ} {rows : List ρ}
    (unique : rows.Pairwise fun row row' => ¬ clash row row')
    (apart : ∀ row ∈ rows, ¬ clash row proposed) :
    (insertRows [proposed] rows).1.Pairwise fun row row' => ¬ clash row row' := by
  refine List.pairwise_append.mpr ⟨unique, List.pairwise_singleton _ _, fun row member row' new => ?_⟩
  rw [List.mem_singleton.mp new]
  exact apart row member

/-- Two rows of a table that clash are one row. -/
theorem eq_of_clash (symmetric : ∀ row row', clash row row' → clash row' row)
    {table : Table ρ clash} {row row' : ρ} (member : row ∈ table.rows)
    (member' : row' ∈ table.rows) (clashing : clash row row') : row = row' := by
  obtain ⟨i, small, rfl⟩ := List.mem_iff_getElem.mp member
  obtain ⟨j, small', rfl⟩ := List.mem_iff_getElem.mp member'
  have apart := List.pairwise_iff_getElem.mp table.unique
  rcases lt_trichotomy i j with before | rfl | after
  · exact absurd clashing (apart i j small small' before)
  · rfl
  · exact absurd (symmetric _ _ clashing) (apart j i small' small after)

/-- `DELETE` breaks no constraint. -/
def delete (where_ : ρ → Bool) (table : Table ρ clash) : Table ρ clash × List (Change ρ) :=
  (⟨(deleteRows where_ table.rows).1, table.unique.filter _⟩, (deleteRows where_ table.rows).2)

@[simp] theorem rows_delete (where_ : ρ → Bool) (table : Table ρ clash) :
    (table.delete where_).1.rows = (deleteRows where_ table.rows).1 := rfl

@[simp] theorem changes_delete (where_ : ρ → Bool) (table : Table ρ clash) :
    (table.delete where_).2 = (deleteRows where_ table.rows).2 := rfl

end Table

/-- With distinct keys, the row with the key of a row is that row. -/
theorem find?_key [DecidableEq κ] {key : ρ → κ} {rows : List ρ} (distinct : (rows.map key).Nodup)
    {row : ρ} (member : row ∈ rows) : (rows.find? fun other => key other = key row) = some row := by
  cases found : rows.find? fun other => key other = key row with
  | none =>
      have absent := List.find?_eq_none.mp found row member
      simp at absent
  | some other =>
      have same : key other = key row := by simpa using List.find?_some found
      rw [List.inj_on_of_nodup_map distinct (List.mem_of_find?_eq_some found) member same]

/-! ## Rows that no change mentions -/

theorem filter_updateRows {q where_ : ρ → Bool} {set : ρ → ρ} {rows : List ρ}
    (untouched : Untouched q (updateRows where_ set rows).2) :
    (updateRows where_ set rows).1.filter q = rows.filter q := by
  induction rows with
  | nil => rfl
  | cons row rows ih =>
      cases matched : where_ row with
      | false =>
          simp only [updateRows, List.filter_cons, matched] at untouched
          have rest := ih untouched
          simp only [updateRows] at rest
          simp [updateRows, List.filter_cons, matched, rest]
      | true =>
          simp only [updateRows, List.filter_cons, matched, if_true, List.map_cons,
            untouched_cons, Change.versions, List.mem_cons, List.not_mem_nil, or_false,
            forall_eq_or_imp, forall_eq] at untouched
          obtain ⟨⟨before, after⟩, later⟩ := untouched
          have rest := ih later
          simp only [updateRows] at rest
          simp [updateRows, matched, before, after, rest]

theorem filter_deleteRows {q where_ : ρ → Bool} {rows : List ρ}
    (untouched : Untouched q (deleteRows where_ rows).2) :
    (deleteRows where_ rows).1.filter q = rows.filter q := by
  simp only [deleteRows, List.filter_filter]
  refine List.filter_congr fun row member => ?_
  cases matched : where_ row with
  | false => simp
  | true =>
      have absent : q row = false :=
        untouched (.delete row)
          (List.mem_map_of_mem (List.mem_filter.mpr ⟨member, matched⟩)) row (by simp [Change.versions])
      simp [absent]

theorem filter_insertRows {q : ρ → Bool} {proposed rows : List ρ}
    (untouched : Untouched q (insertRows proposed rows).2) :
    (insertRows proposed rows).1.filter q = rows.filter q := by
  have none_proposed : proposed.filter q = [] := by
    refine List.filter_eq_nil_iff.mpr fun row member => ?_
    have absent := untouched (.insert row) (List.mem_map_of_mem member) row
      (by simp [Change.versions])
    simp [absent]
  simp [insertRows, List.filter_append, none_proposed]

section Keyed

variable [DecidableEq κ] {key : ρ → κ} {set : ρ → ρ → ρ} {setWhere : ρ → ρ → Bool}

theorem filter_upsertOne {q : ρ → Bool} {proposed : ρ} {rows rows' : List (ρ × Bool)}
    {changes : List (Change ρ)}
    (done : upsertOne key set setWhere proposed rows = some (rows', changes))
    (untouched : Untouched q changes) :
    (rows'.map Prod.fst).filter q = (rows.map Prod.fst).filter q := by
  induction rows generalizing rows' changes with
  | nil =>
      cases done
      simp only [untouched_cons, Change.versions, List.mem_singleton, forall_eq] at untouched
      simp [untouched.1]
  | cons head rest ih =>
      obtain ⟨row, touched⟩ := head
      simp only [upsertOne] at done
      split at done
      · split at done
        · cases done
        · split at done
          · cases done
            simp only [untouched_cons, Change.versions, List.mem_cons, List.not_mem_nil, or_false,
              forall_eq_or_imp, forall_eq] at untouched
            simp [untouched.1.1, untouched.1.2]
          · cases done
            rfl
      · obtain ⟨⟨later, made⟩, found, same⟩ := Option.map_eq_some_iff.mp done
        cases same
        simp only [List.map_cons, List.filter_cons, ih found untouched]

theorem filter_upsertAll {q : ρ → Bool} {proposed : List ρ} {rows rows' : List (ρ × Bool)}
    {changes : List (Change ρ)}
    (done : upsertAll key set setWhere proposed rows = some (rows', changes))
    (untouched : Untouched q changes) :
    (rows'.map Prod.fst).filter q = (rows.map Prod.fst).filter q := by
  induction proposed generalizing rows changes with
  | nil =>
      cases done
      rfl
  | cons row rest ih =>
      obtain ⟨⟨middle, first⟩, one, remaining⟩ := Option.bind_eq_some_iff.mp done
      obtain ⟨⟨last, later⟩, all, same⟩ := Option.map_eq_some_iff.mp remaining
      cases same
      obtain ⟨untouchedFirst, untouchedLater⟩ := untouched_append.mp untouched
      rw [ih all untouchedLater, filter_upsertOne one untouchedFirst]

theorem map_fst_flag (rows : List ρ) : (rows.map fun row => (row, false)).map Prod.fst = rows := by
  rw [List.map_map]
  exact List.map_id rows

theorem filter_upsertRows {q : ρ → Bool} {proposed rows rows' : List ρ}
    {changes : List (Change ρ)}
    (done : upsertRows key set setWhere proposed rows = some (rows', changes))
    (untouched : Untouched q changes) : rows'.filter q = rows.filter q := by
  obtain ⟨⟨last, made⟩, all, same⟩ := Option.map_eq_some_iff.mp done
  cases same
  rw [filter_upsertAll all untouched, map_fst_flag]

end Keyed

/-- The rows of a class that no change mentions are those of before. -/
def Frames (rows : List ρ) (outcome : List ρ × List (Change ρ)) : Prop :=
  ∀ q : ρ → Bool, Untouched q outcome.2 → outcome.1.filter q = rows.filter q

theorem frames_updateRows (where_ : ρ → Bool) (set : ρ → ρ) (rows : List ρ) :
    Frames rows (updateRows where_ set rows) :=
  fun _ untouched => filter_updateRows untouched

theorem frames_deleteRows (where_ : ρ → Bool) (rows : List ρ) :
    Frames rows (deleteRows where_ rows) :=
  fun _ untouched => filter_deleteRows untouched

theorem frames_insertRows (proposed rows : List ρ) : Frames rows (insertRows proposed rows) :=
  fun _ untouched => filter_insertRows untouched

theorem frames_upsertRows [DecidableEq κ] {key : ρ → κ} {set : ρ → ρ → ρ}
    {setWhere : ρ → ρ → Bool} {proposed rows : List ρ} {outcome : List ρ × List (Change ρ)}
    (done : upsertRows key set setWhere proposed rows = some outcome) : Frames rows outcome :=
  fun _ untouched => filter_upsertRows done untouched

/-- When no row matches, nothing is deleted. -/
theorem deleteRows_of_none (where_ : ρ → Bool) (rows : List ρ)
    (unmatched : ∀ row ∈ rows, where_ row = false) : deleteRows where_ rows = (rows, []) := by
  have keep : rows.filter (fun row => !where_ row) = rows :=
    List.filter_eq_self.mpr fun row member => by simp [unmatched row member]
  have drop : rows.filter where_ = [] :=
    List.filter_eq_nil_iff.mpr fun row member => by simp [unmatched row member]
  rw [deleteRows, keep, drop, List.map_nil]

/-! ## What an insert-or-skip leaves -/

section InsertOrSkip

variable [DecidableEq κ] (key : ρ → κ)

/-- The rows that an insertion leaves: the ones that were there and some that it proposes. -/
theorem mem_insertOrSkip (proposed rows : List ρ) :
    (∀ row ∈ rows, row ∈ (insertOrSkip key proposed rows).1) ∧
      ∀ row ∈ (insertOrSkip key proposed rows).1, row ∈ rows ∨ row ∈ proposed := by
  induction proposed generalizing rows with
  | nil => exact ⟨fun _ member => member, fun _ member => .inl member⟩
  | cons first rest ih =>
      by_cases taken : key first ∈ rows.map key
      · rw [insertOrSkip, if_pos taken]
        obtain ⟨kept, only⟩ := ih rows
        exact ⟨kept, fun row member => (only row member).imp_right (List.mem_cons_of_mem _)⟩
      · rw [insertOrSkip, if_neg taken]
        obtain ⟨kept, only⟩ := ih (rows ++ [first])
        refine ⟨fun row member => kept row (List.mem_append_left _ member), fun row member => ?_⟩
        rcases only row member with old | new
        · rcases List.mem_append.mp old with old | here
          · exact .inl old
          · exact .inr (List.mem_singleton.mp here ▸ List.mem_cons_self)
        · exact .inr (List.mem_cons_of_mem _ new)

/-- Every proposed key is in the table afterwards. -/
theorem insertOrSkip_settles (proposed rows : List ρ) :
    ∀ k, k ∈ (insertOrSkip key proposed rows).1.map key ↔
      k ∈ rows.map key ∨ k ∈ proposed.map key := by
  induction proposed generalizing rows with
  | nil => simp [insertOrSkip]
  | cons row rest ih =>
      intro k
      by_cases taken : key row ∈ rows.map key
      · simp only [insertOrSkip, if_pos taken, ih _ k, List.map_cons, List.mem_cons]
        constructor
        · rintro (old | new)
          · exact .inl old
          · exact .inr (.inr new)
        · rintro (old | rfl | new)
          · exact .inl old
          · exact .inl taken
          · exact .inr new
      · simp only [insertOrSkip, if_neg taken, ih _ k, List.map_append, List.mem_append,
          List.map_cons, List.map_nil, List.mem_cons, List.not_mem_nil, false_or, or_assoc]

/-- When every proposed key is taken, nothing is inserted. -/
theorem insertOrSkip_of_settled (proposed rows : List ρ)
    (settled : ∀ row ∈ proposed, key row ∈ rows.map key) :
    insertOrSkip key proposed rows = (rows, []) := by
  induction proposed with
  | nil => rfl
  | cons row rest ih =>
      rw [insertOrSkip, if_pos (settled row List.mem_cons_self)]
      exact ih fun later member => settled later (List.mem_cons_of_mem _ member)

/-- With distinct proposed keys, the rows whose keys are free are appended in order. -/
theorem insertOrSkip_of_distinct (proposed rows : List ρ) (distinct : (proposed.map key).Nodup) :
    insertOrSkip key proposed rows =
      (rows ++ proposed.filter fun row => key row ∉ rows.map key,
        (proposed.filter fun row => key row ∉ rows.map key).map .insert) := by
  induction proposed generalizing rows with
  | nil => simp [insertOrSkip]
  | cons row rest ih =>
      obtain ⟨absent, later⟩ := List.nodup_cons.mp distinct
      by_cases taken : key row ∈ rows.map key
      · rw [insertOrSkip, if_pos taken, ih rows later, List.filter_cons_of_neg (by simpa using taken)]
      · have same : (rest.filter fun other => key other ∉ (rows ++ [row]).map key) =
            rest.filter fun other => key other ∉ rows.map key := by
          refine List.filter_congr fun other member => ?_
          have apart : key other ≠ key row := fun equal =>
            absent (equal ▸ List.mem_map_of_mem member)
          simp [apart]
        rw [insertOrSkip, if_neg taken, ih (rows ++ [row]) later, same,
          List.filter_cons_of_pos (by simpa using taken)]
        simp

end InsertOrSkip

/-! ## What an upsert leaves -/

section Upsert

variable [DecidableEq κ] {key : ρ → κ} {set : ρ → ρ → ρ} {setWhere : ρ → ρ → Bool}

/-- The changes of one proposed row mention only rows with its key. -/
theorem key_of_upsertOne (keyKept : ∀ row proposed, key row = key proposed →
      key (set row proposed) = key proposed)
    {proposed : ρ} {rows rows' : List (ρ × Bool)} {changes : List (Change ρ)}
    (done : upsertOne key set setWhere proposed rows = some (rows', changes)) :
    ∀ change ∈ changes, ∀ row ∈ change.versions, key row = key proposed := by
  induction rows generalizing rows' changes with
  | nil =>
      cases done
      simp [Change.versions]
  | cons head rest ih =>
      obtain ⟨row, touched⟩ := head
      simp only [upsertOne] at done
      split at done
      · rename_i found
        split at done
        · cases done
        · split at done
          · cases done
            simp [Change.versions, found, keyKept row proposed found]
          · cases done
            simp
      · obtain ⟨⟨later, made⟩, deeper, same⟩ := Option.map_eq_some_iff.mp done
        cases same
        exact ih deeper

/-- The changes of an upsert mention only rows with a proposed key. -/
theorem key_of_upsertAll (keyKept : ∀ row proposed, key row = key proposed →
      key (set row proposed) = key proposed)
    {proposed : List ρ} {rows rows' : List (ρ × Bool)} {changes : List (Change ρ)}
    (done : upsertAll key set setWhere proposed rows = some (rows', changes)) :
    ∀ change ∈ changes, ∀ row ∈ change.versions, key row ∈ proposed.map key := by
  induction proposed generalizing rows changes with
  | nil =>
      cases done
      simp
  | cons row rest ih =>
      obtain ⟨⟨middle, first⟩, one, remaining⟩ := Option.bind_eq_some_iff.mp done
      obtain ⟨⟨last, later⟩, all, same⟩ := Option.map_eq_some_iff.mp remaining
      cases same
      intro change member version mentioned
      rcases List.mem_append.mp member with early | late
      · rw [key_of_upsertOne keyKept one change early version mentioned]
        exact List.mem_map_of_mem List.mem_cons_self
      · exact List.mem_cons_of_mem _ (ih all change late version mentioned)

theorem key_of_upsertRows (keyKept : ∀ row proposed, key row = key proposed →
      key (set row proposed) = key proposed)
    {proposed rows rows' : List ρ} {changes : List (Change ρ)}
    (done : upsertRows key set setWhere proposed rows = some (rows', changes)) :
    ∀ change ∈ changes, ∀ row ∈ change.versions, key row ∈ proposed.map key := by
  obtain ⟨⟨last, made⟩, all, same⟩ := Option.map_eq_some_iff.mp done
  cases same
  exact key_of_upsertAll keyKept all

/-- The keys after one proposed row. -/
theorem key_mem_upsertOne (keyKept : ∀ row proposed, key row = key proposed →
      key (set row proposed) = key proposed)
    {proposed : ρ} {rows rows' : List (ρ × Bool)} {changes : List (Change ρ)}
    (done : upsertOne key set setWhere proposed rows = some (rows', changes)) :
    ∀ entry ∈ rows', key entry.1 = key proposed ∨ ∃ entry' ∈ rows, key entry'.1 = key entry.1 := by
  induction rows generalizing rows' changes with
  | nil =>
      cases done
      simp
  | cons head rest ih =>
      obtain ⟨row, touched⟩ := head
      simp only [upsertOne] at done
      split at done
      · rename_i found
        split at done
        · cases done
        · split at done
          · cases done
            intro entry member
            rcases List.mem_cons.mp member with rfl | later
            · exact .inl (keyKept row proposed found)
            · exact .inr ⟨entry, List.mem_cons_of_mem _ later, rfl⟩
          · cases done
            intro entry member
            rcases List.mem_cons.mp member with rfl | later
            · exact .inl found
            · exact .inr ⟨entry, List.mem_cons_of_mem _ later, rfl⟩
      · obtain ⟨⟨later, made⟩, deeper, same⟩ := Option.map_eq_some_iff.mp done
        cases same
        intro entry member
        rcases List.mem_cons.mp member with rfl | inLater
        · exact .inr ⟨_, List.mem_cons_self, rfl⟩
        · rcases ih deeper entry inLater with proposedKey | ⟨entry', member', sameKey⟩
          · exact .inl proposedKey
          · exact .inr ⟨entry', List.mem_cons_of_mem _ member', sameKey⟩

theorem key_mem_upsertAll (keyKept : ∀ row proposed, key row = key proposed →
      key (set row proposed) = key proposed)
    {proposed : List ρ} {rows rows' : List (ρ × Bool)} {changes : List (Change ρ)}
    (done : upsertAll key set setWhere proposed rows = some (rows', changes)) :
    ∀ entry ∈ rows', key entry.1 ∈ proposed.map key ∨
      ∃ entry' ∈ rows, key entry'.1 = key entry.1 := by
  induction proposed generalizing rows changes with
  | nil =>
      cases done
      exact fun entry member => .inr ⟨entry, member, rfl⟩
  | cons first rest ih =>
      obtain ⟨⟨middle, made⟩, one, remaining⟩ := Option.bind_eq_some_iff.mp done
      obtain ⟨⟨last, later⟩, all, same⟩ := Option.map_eq_some_iff.mp remaining
      cases same
      intro entry member
      rcases ih all entry member with inRest | ⟨entry', member', sameKey⟩
      · exact .inl (List.mem_cons_of_mem _ inRest)
      · rcases key_mem_upsertOne keyKept one entry' member' with here | ⟨old, inOld, oldKey⟩
        · rw [← sameKey, here]
          exact .inl List.mem_cons_self
        · exact .inr ⟨old, inOld, oldKey.trans sameKey⟩

/-- An upsert leaves only rows with old and with proposed keys. -/
theorem key_mem_upsertRows (keyKept : ∀ row proposed, key row = key proposed →
      key (set row proposed) = key proposed)
    {proposed rows rows' : List ρ} {changes : List (Change ρ)}
    (done : upsertRows key set setWhere proposed rows = some (rows', changes)) :
    ∀ row ∈ rows', key row ∈ proposed.map key ∨ key row ∈ rows.map key := by
  obtain ⟨⟨last, made⟩, all, same⟩ := Option.map_eq_some_iff.mp done
  cases same
  intro row member
  obtain ⟨entry, inLast, rfl⟩ := List.mem_map.mp member
  rcases key_mem_upsertAll keyKept all entry inLast with proposedKey | ⟨old, inOld, oldKey⟩
  · exact .inl proposedKey
  · obtain ⟨oldRow, inRows, rfl⟩ := List.mem_map.mp inOld
    exact .inr (by rw [← oldKey]; exact List.mem_map_of_mem inRows)

section Settles

variable (keyKept : ∀ row proposed, key row = key proposed → key (set row proposed) = key proposed)
  {settled : ρ → ρ → Prop} (settled_new : ∀ proposed, settled proposed proposed)
  (settled_set : ∀ row proposed, key row = key proposed → settled (set row proposed) proposed)
  (settled_skip : ∀ row proposed, key row = key proposed → setWhere row proposed = false →
    settled row proposed)

include keyKept settled_new settled_set settled_skip

theorem upsertOne_settles {proposed : ρ} {rows rows' : List (ρ × Bool)}
    {changes : List (Change ρ)}
    (done : upsertOne key set setWhere proposed rows = some (rows', changes)) :
    ∃ row ∈ rows'.map Prod.fst, key row = key proposed ∧ settled row proposed := by
  induction rows generalizing rows' changes with
  | nil =>
      cases done
      exact ⟨proposed, by simp, rfl, settled_new proposed⟩
  | cons head rest ih =>
      obtain ⟨row, touched⟩ := head
      simp only [upsertOne] at done
      split at done
      · rename_i found
        split at done
        · cases done
        · split at done
          · cases done
            exact ⟨set row proposed, by simp, keyKept row proposed found,
              settled_set row proposed found⟩
          · rename_i skipped
            cases done
            exact ⟨row, by simp, found, settled_skip row proposed found (by simpa using skipped)⟩
      · obtain ⟨⟨later, made⟩, deeper, same⟩ := Option.map_eq_some_iff.mp done
        cases same
        obtain ⟨settledRow, member, keyEq, holds⟩ := ih deeper
        exact ⟨settledRow, List.mem_cons_of_mem _ member, keyEq, holds⟩

/-- After an upsert with distinct proposed keys, the table holds for each proposed row a
row with its key that is settled for it. -/
theorem upsertAll_settles {proposed : List ρ} (distinct : (proposed.map key).Nodup)
    {rows rows' : List (ρ × Bool)} {changes : List (Change ρ)}
    (done : upsertAll key set setWhere proposed rows = some (rows', changes)) :
    ∀ row ∈ proposed, ∃ kept ∈ rows'.map Prod.fst, key kept = key row ∧ settled kept row := by
  induction proposed generalizing rows changes with
  | nil => simp
  | cons row rest ih =>
      obtain ⟨⟨middle, first⟩, one, remaining⟩ := Option.bind_eq_some_iff.mp done
      obtain ⟨⟨last, later⟩, all, same⟩ := Option.map_eq_some_iff.mp remaining
      cases same
      simp only [List.map_cons, List.nodup_cons] at distinct
      intro wanted member
      rcases List.mem_cons.mp member with rfl | later
      · obtain ⟨kept, inMiddle, keyEq, holds⟩ :=
          upsertOne_settles keyKept settled_new settled_set settled_skip one
        -- The later proposed rows have other keys, so they leave the rows of this key alone.
        have frame := filter_upsertAll (q := fun r => decide (key r = key wanted)) all (by
          intro change changed version mentioned
          have proposedKey := key_of_upsertAll keyKept all change changed version mentioned
          simp only [decide_eq_false_iff_not]
          intro clashing
          exact distinct.1 (clashing ▸ proposedKey))
        have stays : kept ∈ (last.map Prod.fst).filter fun r => decide (key r = key wanted) := by
          rw [frame]
          exact List.mem_filter.mpr ⟨inMiddle, by simpa using keyEq⟩
        exact ⟨kept, (List.mem_filter.mp stays).1, keyEq, holds⟩
      · exact ih distinct.2 all wanted later

variable (settled) in
theorem upsertRows_settles {proposed : List ρ} (distinct : (proposed.map key).Nodup)
    {rows rows' : List ρ} {changes : List (Change ρ)}
    (done : upsertRows key set setWhere proposed rows = some (rows', changes)) :
    ∀ row ∈ proposed, ∃ kept ∈ rows', key kept = key row ∧ settled kept row := by
  obtain ⟨⟨last, made⟩, all, same⟩ := Option.map_eq_some_iff.mp done
  cases same
  exact upsertAll_settles keyKept settled_new settled_set settled_skip distinct all

end Settles

/-! ## An upsert that changes nothing a projection sees -/

section Projection

variable {view : ρ → π}

theorem upsertOne_of_settled {proposed : ρ} {rows rows' : List (ρ × Bool)}
    {changes : List (Change ρ)}
    (present : ∃ row ∈ rows.map Prod.fst, key row = key proposed)
    (unseen : ∀ row, (row, false) ∈ rows → key row = key proposed →
      setWhere row proposed = true → view (set row proposed) = view row)
    (done : upsertOne key set setWhere proposed rows = some (rows', changes)) :
    rows'.map (fun entry => view entry.1) = rows.map (fun entry => view entry.1) ∧
      (∀ row, (row, false) ∈ rows' → (row, false) ∈ rows) ∧
      ∀ change ∈ changes, ∃ row, (row, false) ∈ rows ∧ key row = key proposed ∧
        setWhere row proposed = true ∧ change = .update row (set row proposed) := by
  induction rows generalizing rows' changes with
  | nil => simp at present
  | cons head rest ih =>
      obtain ⟨row, touched⟩ := head
      simp only [upsertOne] at done
      split at done
      · rename_i found
        split at done
        · cases done
        · rename_i fresh
          obtain rfl : touched = false := by simpa using fresh
          split at done
          · rename_i wanted
            cases done
            have here := unseen row List.mem_cons_self found wanted
            refine ⟨by simp [here], fun kept member => ?_, ?_⟩
            · rcases List.mem_cons.mp member with equal | later
              · simp at equal
              · exact List.mem_cons_of_mem _ later
            · intro change member
              obtain rfl := List.mem_singleton.mp member
              exact ⟨row, List.mem_cons_self, found, wanted, rfl⟩
          · cases done
            exact ⟨rfl, fun _ member => member, by simp⟩
      · rename_i other
        obtain ⟨⟨later, made⟩, deeper, same⟩ := Option.map_eq_some_iff.mp done
        cases same
        have presentLater : ∃ kept ∈ rest.map Prod.fst, key kept = key proposed := by
          obtain ⟨kept, member, keyEq⟩ := present
          rcases List.mem_cons.mp member with rfl | deep
          · exact absurd keyEq other
          · exact ⟨kept, deep, keyEq⟩
        obtain ⟨views, unflagged, updates⟩ := ih presentLater
          (fun kept member => unseen kept (List.mem_cons_of_mem _ member)) deeper
        refine ⟨by simp [views], fun kept member => ?_, fun change member => ?_⟩
        · rcases List.mem_cons.mp member with equal | deep
          · exact equal ▸ List.mem_cons_self
          · exact List.mem_cons_of_mem _ (unflagged kept deep)
        · obtain ⟨kept, deep, keyEq, wanted, made⟩ := updates change member
          exact ⟨kept, List.mem_cons_of_mem _ deep, keyEq, wanted, made⟩

variable (keySeen : ∀ row row', view row = view row' → key row = key row')

include keySeen

theorem upsertAll_of_settled {proposed : List ρ} {rows rows' : List (ρ × Bool)}
    {changes : List (Change ρ)}
    (present : ∀ wanted ∈ proposed, ∃ row ∈ rows.map Prod.fst, key row = key wanted)
    (unseen : ∀ wanted ∈ proposed, ∀ row, (row, false) ∈ rows → key row = key wanted →
      setWhere row wanted = true → view (set row wanted) = view row)
    (done : upsertAll key set setWhere proposed rows = some (rows', changes)) :
    rows'.map (fun entry => view entry.1) = rows.map (fun entry => view entry.1) ∧
      ∀ change ∈ changes, ∃ wanted ∈ proposed, ∃ row, (row, false) ∈ rows ∧
        key row = key wanted ∧ setWhere row wanted = true ∧
          change = .update row (set row wanted) := by
  induction proposed generalizing rows changes with
  | nil =>
      cases done
      simp
  | cons row rest ih =>
      obtain ⟨⟨middle, first⟩, one, remaining⟩ := Option.bind_eq_some_iff.mp done
      obtain ⟨⟨last, later⟩, all, same⟩ := Option.map_eq_some_iff.mp remaining
      cases same
      obtain ⟨views, unflagged, updates⟩ := upsertOne_of_settled
        (present row List.mem_cons_self) (unseen row List.mem_cons_self) one
      have presentLater : ∀ wanted ∈ rest, ∃ kept ∈ middle.map Prod.fst,
          key kept = key wanted := by
        intro wanted member
        obtain ⟨kept, inRows, keyEq⟩ := present wanted (List.mem_cons_of_mem _ member)
        have inViews : view kept ∈ middle.map fun entry => view entry.1 := by
          rw [views]
          obtain ⟨entry, inEntries, rfl⟩ := List.mem_map.mp inRows
          exact List.mem_map_of_mem (f := fun entry : ρ × Bool => view entry.1) inEntries
        obtain ⟨entry, inMiddle, sameView⟩ := List.mem_map.mp inViews
        exact ⟨entry.1, List.mem_map_of_mem inMiddle,
          (keySeen entry.1 kept sameView).trans keyEq⟩
      obtain ⟨viewsLater, updatesLater⟩ := ih presentLater
        (fun wanted member kept inMiddle => unseen wanted (List.mem_cons_of_mem _ member) kept
          (unflagged kept inMiddle)) all
      refine ⟨viewsLater.trans views, fun change member => ?_⟩
      rcases List.mem_append.mp member with early | late
      · obtain ⟨kept, inRows, found⟩ := updates change early
        exact ⟨row, List.mem_cons_self, kept, inRows, found⟩
      · obtain ⟨wanted, member, kept, inMiddle, found⟩ := updatesLater change late
        exact ⟨wanted, List.mem_cons_of_mem _ member, kept, unflagged kept inMiddle, found⟩

variable (view) in
/-- When every proposed key is present and no update it makes can be seen through `view`,
an upsert leaves every view as it was, and its changes are such updates. -/
theorem upsertRows_of_settled {proposed rows rows' : List ρ} {changes : List (Change ρ)}
    (present : ∀ wanted ∈ proposed, ∃ row ∈ rows, key row = key wanted)
    (unseen : ∀ wanted ∈ proposed, ∀ row ∈ rows, key row = key wanted →
      setWhere row wanted = true → view (set row wanted) = view row)
    (done : upsertRows key set setWhere proposed rows = some (rows', changes)) :
    rows'.map view = rows.map view ∧
      ∀ change ∈ changes, ∃ wanted ∈ proposed, ∃ row ∈ rows, key row = key wanted ∧
        setWhere row wanted = true ∧ change = .update row (set row wanted) := by
  obtain ⟨⟨last, made⟩, all, same⟩ := Option.map_eq_some_iff.mp done
  cases same
  have flagged : ∀ row, (row, false) ∈ rows.map (fun row => (row, false)) ↔ row ∈ rows := by
    simp
  obtain ⟨views, updates⟩ := upsertAll_of_settled keySeen (by simpa [map_fst_flag] using present)
    (fun wanted member row inRows => unseen wanted member row ((flagged row).mp inRows)) all
  refine ⟨by simpa [Function.comp_def] using views, fun change member => ?_⟩
  obtain ⟨wanted, inProposed, row, inRows, found⟩ := updates change member
  exact ⟨wanted, inProposed, row, (flagged row).mp inRows, found⟩

end Projection

/-! ## What an unconditional upsert returns -/

section Returning

variable (key set)

/-- What an upsert that always updates does for one proposed row. -/
def changeFor (rows : List ρ) (proposed : ρ) : Change ρ :=
  match rows.find? fun row => key row = key proposed with
  | some row => .update row (set row proposed)
  | none => .insert proposed

/-- The row that an upsert that always updates leaves for a proposed row. -/
def rowFor (rows : List ρ) (proposed : ρ) : ρ :=
  match rows.find? fun row => key row = key proposed with
  | some row => set row proposed
  | none => proposed

variable {key set}

theorem new?_changeFor (rows : List ρ) (proposed : ρ) :
    (changeFor key set rows proposed).new? = some (rowFor key set rows proposed) := by
  unfold changeFor rowFor
  split <;> rfl

/-- What `RETURNING` yields for the changes of an unconditional upsert. -/
theorem filterMap_new?_changeFor (rows proposed : List ρ) :
    (proposed.map (changeFor key set rows)).filterMap Change.new? =
      proposed.map (rowFor key set rows) := by
  rw [List.filterMap_map, ← List.filterMap_eq_map']
  exact List.filterMap_congr fun row _ => new?_changeFor rows row

theorem key_rowFor {proposed : ρ}
    (keyKept : ∀ row, key row = key proposed → key (set row proposed) = key proposed)
    (rows : List ρ) : key (rowFor key set rows proposed) = key proposed := by
  unfold rowFor
  split
  · rename_i row found
    exact keyKept row (by simpa using List.find?_some found)
  · rfl

theorem rowFor_congr {rows rows' : List ρ} {proposed : ρ}
    (same : rows.find? (fun row => key row = key proposed) =
      rows'.find? fun row => key row = key proposed) :
    rowFor key set rows proposed = rowFor key set rows' proposed ∧
      changeFor key set rows proposed = changeFor key set rows' proposed := by
  simp only [rowFor, changeFor, same, and_self]

/-- The first entry with a key. -/
abbrev entryFor (key : ρ → κ) (rows : List (ρ × Bool)) (k : κ) : Option (ρ × Bool) :=
  rows.find? fun entry => key entry.1 = k

theorem upsertOne_always (always : ∀ row proposed, setWhere row proposed = true) {proposed : ρ}
    (keyKept : ∀ row, key row = key proposed → key (set row proposed) = key proposed)
    {rows rows' : List (ρ × Bool)} {changes : List (Change ρ)}
    (done : upsertOne key set setWhere proposed rows = some (rows', changes)) :
    changes = [changeFor key set (rows.map Prod.fst) proposed] ∧
      (∀ row, entryFor key rows (key proposed) ≠ some (row, true)) ∧
      entryFor key rows' (key proposed) =
        some (rowFor key set (rows.map Prod.fst) proposed, true) ∧
      ∀ k, k ≠ key proposed → entryFor key rows' k = entryFor key rows k := by
  induction rows generalizing rows' changes with
  | nil =>
      cases done
      refine ⟨rfl, by simp, by simp [rowFor], fun k other => ?_⟩
      simp [Ne.symm other]
  | cons head rest ih =>
      obtain ⟨row, touched⟩ := head
      simp only [upsertOne, always, if_true] at done
      split at done
      · rename_i found
        split at done
        · cases done
        · rename_i fresh
          obtain rfl : touched = false := by simpa using fresh
          cases done
          refine ⟨by simp [changeFor, found], by simp [found],
            by simp [rowFor, found, keyKept row found], fun k other => ?_⟩
          simp [keyKept row found, found, Ne.symm other]
      · rename_i different
        obtain ⟨⟨later, made⟩, deeper, same⟩ := Option.map_eq_some_iff.mp done
        cases same
        obtain ⟨changed, fresh, left, others⟩ := ih deeper
        refine ⟨by simpa [changeFor, different] using changed, by simpa [different] using fresh,
          by simpa [rowFor, different] using left, fun k other => ?_⟩
        by_cases here : key row = k
        · simp [here]
        · simpa [here] using others k other

theorem find?_map_fst (rows : List (ρ × Bool)) (k : κ) :
    (rows.map Prod.fst).find? (fun row => key row = k) = (entryFor key rows k).map Prod.fst := by
  rw [List.find?_map]
  rfl

theorem upsertAll_always (always : ∀ row proposed, setWhere row proposed = true)
    {proposed : List ρ} (keyKept : ∀ wanted ∈ proposed, ∀ row, key row = key wanted →
      key (set row wanted) = key wanted) {rows rows' : List (ρ × Bool)} {changes : List (Change ρ)}
    (done : upsertAll key set setWhere proposed rows = some (rows', changes)) :
    changes = proposed.map (changeFor key set (rows.map Prod.fst)) ∧
      (∀ wanted ∈ proposed, ∀ row, entryFor key rows (key wanted) ≠ some (row, true)) ∧
      (∀ wanted ∈ proposed, entryFor key rows' (key wanted) =
        some (rowFor key set (rows.map Prod.fst) wanted, true)) ∧
      (∀ k, k ∉ proposed.map key → entryFor key rows' k = entryFor key rows k) ∧
      (proposed.map key).Nodup := by
  induction proposed generalizing rows changes with
  | nil =>
      cases done
      simp
  | cons first rest ih =>
      obtain ⟨⟨middle, made⟩, one, remaining⟩ := Option.bind_eq_some_iff.mp done
      obtain ⟨⟨last, later⟩, all, same⟩ := Option.map_eq_some_iff.mp remaining
      cases same
      obtain ⟨changed, fresh, left, others⟩ :=
        upsertOne_always always (keyKept first List.mem_cons_self) one
      obtain ⟨changedLater, freshLater, leftLater, othersLater, distinct⟩ :=
        ih (fun wanted member => keyKept wanted (List.mem_cons_of_mem _ member)) all
      -- A later proposed row with the first key would change a touched row.
      have apart : ∀ wanted ∈ rest, key wanted ≠ key first := fun wanted member sameKey =>
        freshLater wanted member _ (sameKey ▸ left)
      have kept : ∀ wanted ∈ rest, entryFor key middle (key wanted) = entryFor key rows (key wanted) :=
        fun wanted member => others _ (apart wanted member)
      have agree : ∀ wanted ∈ rest,
          rowFor key set (middle.map Prod.fst) wanted = rowFor key set (rows.map Prod.fst) wanted ∧
            changeFor key set (middle.map Prod.fst) wanted =
              changeFor key set (rows.map Prod.fst) wanted := fun wanted member =>
        rowFor_congr (by rw [find?_map_fst, find?_map_fst, kept wanted member])
      have notLater : key first ∉ rest.map key := by
        intro member
        obtain ⟨wanted, inRest, sameKey⟩ := List.mem_map.mp member
        exact apart wanted inRest sameKey
      refine ⟨?_, ?_, ?_, ?_, ?_⟩
      · rw [changed, changedLater, List.map_cons, List.singleton_append]
        exact congrArg _ (List.map_congr_left fun wanted member => (agree wanted member).2)
      · intro wanted member row
        rcases List.mem_cons.mp member with rfl | inRest
        · exact fresh row
        · rw [← kept wanted inRest]
          exact freshLater wanted inRest row
      · intro wanted member
        rcases List.mem_cons.mp member with rfl | inRest
        · rw [othersLater _ notLater, left]
        · rw [leftLater wanted inRest, (agree wanted inRest).1]
      · intro k absent
        simp only [List.map_cons, List.mem_cons, not_or] at absent
        rw [othersLater k absent.2, others k absent.1]
      · exact List.nodup_cons.mpr ⟨notLater, distinct⟩

/-- **An upsert that always updates**: its changes are those of its proposed rows one by one,
which have distinct keys, and it leaves the row of each. -/
theorem upsertRows_always (always : ∀ row proposed, setWhere row proposed = true)
    {proposed rows rows' : List ρ} {changes : List (Change ρ)}
    (keyKept : ∀ wanted ∈ proposed, ∀ row, key row = key wanted →
      key (set row wanted) = key wanted)
    (done : upsertRows key set setWhere proposed rows = some (rows', changes)) :
    changes = proposed.map (changeFor key set rows) ∧ (proposed.map key).Nodup ∧
      (∀ wanted ∈ proposed, rows'.find? (fun row => key row = key wanted) =
        some (rowFor key set rows wanted)) ∧
      ∀ k, k ∉ proposed.map key →
        rows'.find? (fun row => key row = k) = rows.find? fun row => key row = k := by
  obtain ⟨⟨last, made⟩, all, same⟩ := Option.map_eq_some_iff.mp done
  cases same
  obtain ⟨changed, -, left, others, distinct⟩ :=
    upsertAll_always always keyKept all
  rw [map_fst_flag] at changed left
  refine ⟨changed, distinct, fun wanted member => ?_, fun k absent => ?_⟩
  · rw [find?_map_fst, left wanted member, Option.map_some]
  · rw [find?_map_fst, others k absent, ← find?_map_fst, map_fst_flag]

end Returning

end Upsert

end EliteHubVault.Library
