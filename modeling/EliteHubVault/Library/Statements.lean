import EliteHubVault.Library.ChangeLog
import EliteHubVault.Library.Upserts

/-!
# One statement on a table, whatever it is

`Executes rows outcome` says that the outcome is that of a single statement. A single
statement mentions the rows it found and the rows it leaves, and no others
(`Executes.mem_of_mentioned`). What an upsert leaves is an old row, a proposed one, or an
old one that was set (`mem_of_upsertRows`), and no old row gets lost
(`exists_of_upsertRows`).
-/

set_option autoImplicit false

namespace EliteHubVault.Library

variable {ρ κ ι : Type*}

/-! ## Upserts -/

section Upserts

variable [DecidableEq κ] {key : ρ → κ} {set : ρ → ρ → ρ} {setWhere : ρ → ρ → Bool}

/-- An entry stays, or is set when the statement has not touched it. -/
theorem exists_of_upsertOne {proposed : ρ} {rows rows' : List (ρ × Bool)}
    {changes : List (Change ρ)}
    (done : upsertOne key set setWhere proposed rows = some (rows', changes)) {entry : ρ × Bool}
    (member : entry ∈ rows) :
    entry ∈ rows' ∨ (entry.2 = false ∧ (set entry.1 proposed, true) ∈ rows') := by
  induction rows generalizing rows' changes with
  | nil => cases member
  | cons head rest ih =>
      obtain ⟨row, touched⟩ := head
      simp only [upsertOne] at done
      split at done
      · split at done
        · cases done
        · rename_i untouched
          obtain rfl : touched = false := by simpa using untouched
          split at done <;> cases done
          · rcases List.mem_cons.mp member with rfl | inRest
            · exact .inr ⟨rfl, List.mem_cons_self⟩
            · exact .inl (List.mem_cons_of_mem _ inRest)
          · exact .inl member
      · obtain ⟨⟨later, made⟩, deeper, same⟩ := Option.map_eq_some_iff.mp done
        cases same
        rcases List.mem_cons.mp member with rfl | inRest
        · exact .inl List.mem_cons_self
        · exact (ih deeper inRest).imp (List.mem_cons_of_mem _)
            (And.imp_right (List.mem_cons_of_mem _))

/-- A version that one proposed row mentions was there untouched, or is there touched. -/
theorem mentioned_of_upsertOne {proposed : ρ} {rows rows' : List (ρ × Bool)}
    {changes : List (Change ρ)}
    (done : upsertOne key set setWhere proposed rows = some (rows', changes)) {change : Change ρ}
    (member : change ∈ changes) {row : ρ} (mentioned : row ∈ change.versions) :
    (row, false) ∈ rows ∨ (row, true) ∈ rows' := by
  induction rows generalizing rows' changes with
  | nil =>
      cases done
      obtain rfl := List.mem_singleton.mp member
      obtain rfl := List.mem_singleton.mp mentioned
      exact .inr List.mem_cons_self
  | cons head rest ih =>
      obtain ⟨old, touched⟩ := head
      simp only [upsertOne] at done
      split at done
      · split at done
        · cases done
        · rename_i untouched
          obtain rfl : touched = false := by simpa using untouched
          split at done <;> cases done
          · obtain rfl := List.mem_singleton.mp member
            rcases List.mem_cons.mp mentioned with rfl | later
            · exact .inl List.mem_cons_self
            · obtain rfl := List.mem_singleton.mp later
              exact .inr List.mem_cons_self
          · cases member
      · obtain ⟨⟨later, made⟩, deeper, same⟩ := Option.map_eq_some_iff.mp done
        cases same
        exact (ih deeper member).imp (List.mem_cons_of_mem _) (List.mem_cons_of_mem _)

theorem touched_upsertAll {proposed : List ρ} {rows rows' : List (ρ × Bool)}
    {changes : List (Change ρ)}
    (done : upsertAll key set setWhere proposed rows = some (rows', changes)) {row : ρ}
    (member : (row, true) ∈ rows) : (row, true) ∈ rows' := by
  induction proposed generalizing rows changes with
  | nil =>
      cases done
      exact member
  | cons first rest ih =>
      obtain ⟨⟨middle, made⟩, one, remaining⟩ := Option.bind_eq_some_iff.mp done
      obtain ⟨⟨last, later⟩, all, same⟩ := Option.map_eq_some_iff.mp remaining
      cases same
      obtain stays | ⟨untouched, -⟩ := exists_of_upsertOne one member
      · exact ih all stays
      · cases untouched

theorem mentioned_of_upsertAll {proposed : List ρ} {rows rows' : List (ρ × Bool)}
    {changes : List (Change ρ)}
    (done : upsertAll key set setWhere proposed rows = some (rows', changes)) {change : Change ρ}
    (member : change ∈ changes) {row : ρ} (mentioned : row ∈ change.versions) :
    (row, false) ∈ rows ∨ (row, true) ∈ rows' := by
  induction proposed generalizing rows changes with
  | nil =>
      cases done
      cases member
  | cons first rest ih =>
      obtain ⟨⟨middle, made⟩, one, remaining⟩ := Option.bind_eq_some_iff.mp done
      obtain ⟨⟨last, later⟩, all, same⟩ := Option.map_eq_some_iff.mp remaining
      cases same
      rcases List.mem_append.mp member with early | late
      · exact (mentioned_of_upsertOne one early mentioned).imp_right (touched_upsertAll all)
      · exact (ih all late).imp_left (mem_upsertOne_of_untouched one)

theorem mem_of_upsertAll {proposed : List ρ} {rows rows' : List (ρ × Bool)}
    {changes : List (Change ρ)}
    (done : upsertAll key set setWhere proposed rows = some (rows', changes)) {entry : ρ × Bool}
    (member : entry ∈ rows') :
    entry ∈ rows ∨ entry.1 ∈ proposed ∨
      ∃ row wanted, (row, false) ∈ rows ∧ wanted ∈ proposed ∧ entry.1 = set row wanted := by
  induction proposed generalizing rows changes with
  | nil =>
      cases done
      exact .inl member
  | cons first rest ih =>
      obtain ⟨⟨middle, made⟩, one, remaining⟩ := Option.bind_eq_some_iff.mp done
      obtain ⟨⟨last, later⟩, all, same⟩ := Option.map_eq_some_iff.mp remaining
      cases same
      rcases ih all with inMiddle | listed | ⟨row, wanted, inMiddle, listed, made⟩
      · rcases mem_of_upsertOne one inMiddle with old | ⟨rfl, -⟩ | ⟨row, inRows, -, rfl⟩
        · exact .inl old
        · exact .inr (.inl List.mem_cons_self)
        · exact .inr (.inr ⟨row, first, inRows, List.mem_cons_self, rfl⟩)
      · exact .inr (.inl (List.mem_cons_of_mem _ listed))
      · exact .inr (.inr ⟨row, wanted, mem_upsertOne_of_untouched one inMiddle,
          List.mem_cons_of_mem _ listed, made⟩)

/-- **The rows that an upsert leaves.** -/
theorem mem_of_upsertRows {proposed rows : List ρ} {outcome : List ρ × List (Change ρ)}
    (done : upsertRows key set setWhere proposed rows = some outcome) {row : ρ}
    (member : row ∈ outcome.1) :
    row ∈ rows ∨ row ∈ proposed ∨
      ∃ old ∈ rows, ∃ wanted ∈ proposed, row = set old wanted := by
  obtain ⟨⟨entries, changes⟩, all, rfl⟩ := Option.map_eq_some_iff.mp done
  obtain ⟨entry, inEntries, rfl⟩ := List.mem_map.mp member
  have stored : ∀ entry ∈ rows.map fun row => (row, false), entry.1 ∈ rows := fun entry listed => by
    obtain ⟨row, inRows, rfl⟩ := List.mem_map.mp listed
    exact inRows
  rcases mem_of_upsertAll all inEntries with old | listed | ⟨old, wanted, inOld, listed, made⟩
  · exact .inl (stored entry old)
  · exact .inr (.inl listed)
  · exact .inr (.inr ⟨old, stored _ inOld, wanted, listed, made⟩)

theorem exists_of_upsertAll {column : ρ → ι} (kept : ∀ row wanted, column (set row wanted) =
    column row) {proposed : List ρ} {rows rows' : List (ρ × Bool)} {changes : List (Change ρ)}
    (done : upsertAll key set setWhere proposed rows = some (rows', changes)) {entry : ρ × Bool}
    (member : entry ∈ rows) : ∃ entry' ∈ rows', column entry'.1 = column entry.1 := by
  induction proposed generalizing rows changes entry with
  | nil =>
      cases done
      exact ⟨entry, member, rfl⟩
  | cons first rest ih =>
      obtain ⟨⟨middle, made⟩, one, remaining⟩ := Option.bind_eq_some_iff.mp done
      obtain ⟨⟨last, later⟩, all, same⟩ := Option.map_eq_some_iff.mp remaining
      cases same
      rcases exists_of_upsertOne one member with stays | ⟨-, changed⟩
      · exact ih all stays
      · obtain ⟨entry', inLast, same⟩ := ih all changed
        exact ⟨entry', inLast, same.trans (kept _ _)⟩

/-- **What the set clause keeps of a row is still there after the upsert.** -/
theorem exists_of_upsertRows {proposed rows : List ρ} {outcome : List ρ × List (Change ρ)}
    (done : upsertRows key set setWhere proposed rows = some outcome) {column : ρ → ι}
    (kept : ∀ row wanted, column (set row wanted) = column row) {row : ρ} (member : row ∈ rows) :
    ∃ row' ∈ outcome.1, column row' = column row := by
  obtain ⟨⟨entries, changes⟩, all, rfl⟩ := Option.map_eq_some_iff.mp done
  obtain ⟨entry, inEntries, same⟩ := exists_of_upsertAll kept all
    (List.mem_map.mpr ⟨row, member, rfl⟩)
  exact ⟨entry.1, List.mem_map_of_mem inEntries, same⟩

end Upserts

/-! ## Single statements -/

/-- The outcome is that of one statement on these rows. -/
inductive Executes (rows : List ρ) : List ρ × List (Change ρ) → Prop where
  | updated (where_ : ρ → Bool) (set : ρ → ρ) : Executes rows (updateRows where_ set rows)
  | deleted (where_ : ρ → Bool) : Executes rows (deleteRows where_ rows)
  | inserted (proposed : List ρ) : Executes rows (insertRows proposed rows)
  | insertedOrSkipped {κ : Type} [DecidableEq κ] (key : ρ → κ) (proposed : List ρ) :
      Executes rows (insertOrSkip key proposed rows)
  | upserted {κ : Type} [DecidableEq κ] {key : ρ → κ} {set : ρ → ρ → ρ}
      {setWhere : ρ → ρ → Bool} {proposed : List ρ} {outcome : List ρ × List (Change ρ)}
      (done : upsertRows key set setWhere proposed rows = some outcome) : Executes rows outcome

theorem Table.write_deleteRows {clash : ρ → ρ → Prop} [DecidableRel clash] (where_ : ρ → Bool)
    (table : Table ρ clash) : Table.write (deleteRows where_ table.rows) = some (table.delete where_) :=
  Table.write_of_pairwise (table.unique.filter _)

theorem mentioned_insertOrSkip [DecidableEq κ] (key : ρ → κ) {proposed rows : List ρ}
    {change : Change ρ} (member : change ∈ (insertOrSkip key proposed rows).2) {row : ρ}
    (mentioned : row ∈ change.versions) : row ∈ (insertOrSkip key proposed rows).1 := by
  induction proposed generalizing rows with
  | nil => cases member
  | cons first rest ih =>
      rw [insertOrSkip] at member ⊢
      split at member
      · rename_i taken
        rw [if_pos taken]
        exact ih member
      · rename_i fresh
        rw [if_neg fresh]
        rcases List.mem_cons.mp member with rfl | later
        · obtain rfl := List.mem_singleton.mp mentioned
          exact (mem_insertOrSkip key rest _).1 _ (List.mem_append_right _ List.mem_cons_self)
        · exact ih later

/-- **A statement mentions rows that it found and rows that it leaves.** -/
theorem Executes.mem_of_mentioned {rows : List ρ} {outcome : List ρ × List (Change ρ)}
    (statement : Executes rows outcome) {change : Change ρ} (member : change ∈ outcome.2)
    {row : ρ} (mentioned : row ∈ change.versions) : row ∈ rows ∨ row ∈ outcome.1 := by
  cases statement with
  | updated where_ set =>
      obtain ⟨old, matched, rfl⟩ := List.mem_map.mp member
      obtain ⟨inRows, matched⟩ := List.mem_filter.mp matched
      rcases List.mem_cons.mp mentioned with rfl | later
      · exact .inl inRows
      · obtain rfl := List.mem_singleton.mp later
        exact .inr (List.mem_map.mpr ⟨old, inRows, if_pos matched⟩)
  | deleted where_ =>
      obtain ⟨old, matched, rfl⟩ := List.mem_map.mp member
      obtain rfl := List.mem_singleton.mp mentioned
      exact .inl (List.mem_filter.mp matched).1
  | inserted proposed =>
      obtain ⟨new, listed, rfl⟩ := List.mem_map.mp member
      obtain rfl := List.mem_singleton.mp mentioned
      exact .inr (List.mem_append_right _ listed)
  | insertedOrSkipped key proposed => exact .inr (mentioned_insertOrSkip key member mentioned)
  | upserted done =>
      obtain ⟨⟨entries, changes⟩, all, rfl⟩ := Option.map_eq_some_iff.mp done
      rcases mentioned_of_upsertAll all member mentioned with before | after
      · obtain ⟨old, inRows, same⟩ := List.mem_map.mp before
        cases same
        exact .inl inRows
      · exact .inr (List.mem_map.mpr ⟨_, after, rfl⟩)

end EliteHubVault.Library
