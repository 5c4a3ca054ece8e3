import EliteHubVault.Library.Table

/-!
# What a log of changes tells about one row

In a table with distinct keys a statement changes the row with a given key at most once
(`EditsAt`), and the one change goes from the row before the statement to the row after it.
That holds of every statement that keeps the key of the rows it updates; the conflict target
of an upsert can be another key.

A log collects what each change emits. A reader of one key picks its signals from the log.
`Announces` relates the signals so far to the row: when every single change keeps the
relation, so does every statement (`Announces.statement`).
-/

set_option autoImplicit false
set_option linter.unusedSectionVars false

namespace EliteHubVault.Library

variable {ρ κ τ ε ν : Type*}

/-- The version the row has before the statement. -/
def Change.old? : Change ρ → Option ρ
  | .insert _ => none
  | .update old _ => some old
  | .delete old => some old

theorem Change.mem_versions {change : Change ρ} {row : ρ} :
    row ∈ change.versions ↔ change.old? = some row ∨ change.new? = some row := by
  cases change <;> simp [versions, old?, new?, eq_comm]

section Keyed

variable [DecidableEq κ] (key : ρ → κ)

/-! ## The row with a key -/

/-- The row with a key. -/
def rowAt (rows : List ρ) (k : κ) : Option ρ := rows.find? fun row => key row = k

/-- The changes that mention a row with the key. -/
def changesAt (changes : List (Change ρ)) (k : κ) : List (Change ρ) :=
  changes.filter fun change => change.versions.any fun row => key row = k

variable {key}

theorem key_of_rowAt {rows : List ρ} {k : κ} {row : ρ} (found : rowAt key rows k = some row) :
    key row = k := by
  simpa using List.find?_some found

theorem mem_of_rowAt {rows : List ρ} {k : κ} {row : ρ} (found : rowAt key rows k = some row) :
    row ∈ rows :=
  List.mem_of_find?_eq_some found

theorem rowAt_eq_none {rows : List ρ} {k : κ} : rowAt key rows k = none ↔ k ∉ rows.map key := by
  simp [rowAt]

/-- With distinct keys, the row with a key is the only one that has it. -/
theorem filter_key {rows : List ρ} (distinct : (rows.map key).Nodup) (k : κ) :
    rows.filter (fun row => key row = k) = (rowAt key rows k).toList := by
  induction rows with
  | nil => rfl
  | cons row rest ih =>
      obtain ⟨fresh, later⟩ := List.nodup_cons.mp distinct
      by_cases here : key row = k
      · have absent : rowAt key rest k = none := rowAt_eq_none.mpr (here ▸ fresh)
        have others := ih later
        rw [absent] at others
        simp [rowAt, here, others]
      · simpa [rowAt, here] using ih later

theorem rowAt_eq_head? (rows : List ρ) (k : κ) :
    rowAt key rows k = (rows.filter fun row => key row = k).head? :=
  List.head?_filter.symm

/-- With distinct keys, a row is the row with its key. -/
theorem rowAt_eq_some {rows : List ρ} (distinct : (rows.map key).Nodup) {k : κ} {row : ρ} :
    rowAt key rows k = some row ↔ row ∈ rows ∧ key row = k := by
  constructor
  · exact fun found => ⟨mem_of_rowAt found, key_of_rowAt found⟩
  · rintro ⟨member, rfl⟩
    exact find?_key distinct member

/-! ## One change at most -/

variable (key) in
/-- The statement changes the row with this key at most once, from the row before it to the
row after it. -/
inductive EditsAt (rows : List ρ) (outcome : List ρ × List (Change ρ)) (k : κ) : Prop where
  | kept (silent : changesAt key outcome.2 k = [])
      (same : rowAt key outcome.1 k = rowAt key rows k)
  | changed (change : Change ρ) (single : changesAt key outcome.2 k = [change])
      (before : change.old? = rowAt key rows k) (after : change.new? = rowAt key outcome.1 k)

/-- The changes of a statement that makes the same kind of change to some rows. -/
theorem changesAt_map {rows : List ρ} {make : ρ → Change ρ} {k : κ}
    (mentions : ∀ row ∈ rows, ((make row).versions.any fun version => key version = k) =
      decide (key row = k)) :
    changesAt key (rows.map make) k = (rows.filter fun row => key row = k).map make := by
  rw [changesAt, List.filter_map]
  exact congrArg _ (List.filter_congr mentions)

theorem editsAt_insertRows {proposed rows : List ρ}
    (distinct : ((insertRows proposed rows).1.map key).Nodup) (k : κ) :
    EditsAt key rows (insertRows proposed rows) k := by
  have changes : changesAt key (insertRows proposed rows).2 k =
      (proposed.filter fun row => key row = k).map .insert :=
    changesAt_map fun row _ => by simp [Change.versions]
  simp only [insertRows, List.map_append] at distinct
  obtain ⟨old, new, apart⟩ := List.nodup_append'.mp distinct
  rw [filter_key new] at changes
  cases found : rowAt key proposed k with
  | none =>
      refine .kept (by simpa [found] using changes) ?_
      simp only [insertRows, rowAt] at found ⊢
      rw [List.find?_append, found, Option.or_none]
  | some row =>
      have absent : rowAt key rows k = none := by
        refine rowAt_eq_none.mpr fun member => ?_
        exact apart member (key_of_rowAt found ▸ List.mem_map_of_mem (mem_of_rowAt found))
      refine .changed (.insert row) (by simpa [found] using changes) absent.symm ?_
      simp only [insertRows, rowAt, Change.new?] at found absent ⊢
      rw [List.find?_append, absent, found, Option.none_or]

theorem editsAt_deleteRows {where_ : ρ → Bool} {rows : List ρ}
    (distinct : (rows.map key).Nodup) (k : κ) : EditsAt key rows (deleteRows where_ rows) k := by
  have changes : changesAt key (deleteRows where_ rows).2 k =
      ((rows.filter where_).filter fun row => key row = k).map .delete :=
    changesAt_map fun row _ => by simp [Change.versions]
  have left : rowAt key (deleteRows where_ rows).1 k =
      ((rows.filter fun row => !where_ row).filter fun row => key row = k).head? :=
    rowAt_eq_head? _ k
  rw [List.filter_comm, filter_key distinct] at changes left
  cases found : rowAt key rows k with
  | none =>
      rw [found] at changes left
      exact .kept (by simpa using changes) (by rw [left, found]; rfl)
  | some row =>
      rw [found] at changes left
      cases matched : where_ row with
      | false => exact .kept (by simpa [matched] using changes) (by rw [left, found]; simp [matched])
      | true =>
          refine .changed (.delete row) (by simpa [matched] using changes) found.symm ?_
          rw [left]
          simp [matched, Change.new?]

theorem editsAt_updateRows {where_ : ρ → Bool} {set : ρ → ρ} {rows : List ρ}
    (distinct : (rows.map key).Nodup)
    (kept : ∀ row ∈ rows, where_ row = true → key (set row) = key row) (k : κ) :
    EditsAt key rows (updateRows where_ set rows) k := by
  have changes : changesAt key (updateRows where_ set rows).2 k =
      ((rows.filter where_).filter fun row => key row = k).map fun row => .update row (set row) := by
    refine changesAt_map fun row member => ?_
    obtain ⟨inRows, matched⟩ := List.mem_filter.mp member
    simp [Change.versions, kept row inRows matched]
  have left : rowAt key (updateRows where_ set rows).1 k =
      (rowAt key rows k).map fun row => if where_ row then set row else row := by
    simp only [updateRows, rowAt, List.find?_map]
    refine congrArg _ (List.find?_congr fun row member => ?_)
    by_cases matched : where_ row = true
    · simp [matched, kept row member matched]
    · simp [matched]
  rw [List.filter_comm, filter_key distinct] at changes
  cases found : rowAt key rows k with
  | none =>
      rw [found] at changes left
      exact .kept (by simpa using changes) (by rw [left, found]; rfl)
  | some row =>
      rw [found] at changes left
      cases matched : where_ row with
      | false => exact .kept (by simpa [matched] using changes) (by rw [left, found]; simp [matched])
      | true =>
          refine .changed (.update row (set row)) (by simpa [matched] using changes) found.symm ?_
          rw [left]
          simp [matched, Change.new?]

/-! ## Upserts -/

section Upsert

variable [DecidableEq τ] {target : ρ → τ} {set : ρ → ρ → ρ} {setWhere : ρ → ρ → Bool}

/-- The entry of an upsert in progress whose row has this key. -/
abbrev entryAt (key : ρ → κ) (entries : List (ρ × Bool)) (k : κ) : Option (ρ × Bool) :=
  entries.find? fun entry => key entry.1 = k

variable (key) in
/-- What some proposed rows of an upsert do to the row with a key: nothing, or one change of a
row that was not touched before and is touched afterwards. -/
inductive UpsertsAt (entries entries' : List (ρ × Bool)) (changes : List (Change ρ)) (k : κ) :
    Prop where
  | kept (silent : changesAt key changes k = []) (same : entryAt key entries' k = entryAt key entries k)
  | changed (change : Change ρ) (single : changesAt key changes k = [change])
      (before : (entryAt key entries k).map Prod.fst = change.old?)
      (fresh : ∀ entry, entryAt key entries k = some entry → entry.2 = false)
      (after : (entryAt key entries' k).map Prod.fst = change.new?)
      (touched : ∃ row, entryAt key entries' k = some (row, true))

/-- A proposed row keeps the keys of the table and may add its own. -/
theorem keys_upsertOne {proposed : ρ} {entries entries' : List (ρ × Bool)}
    {changes : List (Change ρ)}
    (kept : ∀ row, (row, false) ∈ entries → key (set row proposed) = key row)
    (done : upsertOne target set setWhere proposed entries = some (entries', changes)) :
    ∃ added, entries'.map (fun entry => key entry.1) =
      entries.map (fun entry => key entry.1) ++ added := by
  induction entries generalizing entries' changes with
  | nil =>
      cases done
      exact ⟨[key proposed], by simp⟩
  | cons head rest ih =>
      obtain ⟨row, touched⟩ := head
      simp only [upsertOne] at done
      split at done
      · split at done
        · cases done
        · rename_i untouched
          obtain rfl : touched = false := by simpa using untouched
          split at done
          · cases done
            exact ⟨[], by simp [kept row List.mem_cons_self]⟩
          · cases done
            exact ⟨[], by simp⟩
      · obtain ⟨⟨later, made⟩, deeper, same⟩ := Option.map_eq_some_iff.mp done
        cases same
        obtain ⟨added, grown⟩ := ih (fun row member => kept row (List.mem_cons_of_mem _ member))
          deeper
        exact ⟨added, by simp [grown]⟩

theorem upsertsAt_upsertOne {proposed : ρ} {entries entries' : List (ρ × Bool)}
    {changes : List (Change ρ)}
    (kept : ∀ row, (row, false) ∈ entries → key (set row proposed) = key row)
    (distinct : (entries'.map fun entry => key entry.1).Nodup)
    (done : upsertOne target set setWhere proposed entries = some (entries', changes)) (k : κ) :
    UpsertsAt key entries entries' changes k := by
  induction entries generalizing entries' changes with
  | nil =>
      cases done
      by_cases here : key proposed = k
      · exact .changed (.insert proposed) (by simp [changesAt, Change.versions, here]) rfl
          (by simp) (by simp [here, Change.new?]) ⟨proposed, by simp [here]⟩
      · exact .kept (by simp [changesAt, Change.versions, here]) (by simp [here])
  | cons head rest ih =>
      obtain ⟨row, touched⟩ := head
      simp only [upsertOne] at done
      split at done
      · split at done
        · cases done
        · rename_i untouched
          obtain rfl : touched = false := by simpa using untouched
          have keyKept := kept row List.mem_cons_self
          split at done
          · cases done
            by_cases here : key row = k
            · have after : key (set row proposed) = k := keyKept.trans here
              exact .changed (.update row (set row proposed))
                (by simp [changesAt, Change.versions, here]) (by simp [here, Change.old?])
                (by simp [here]) (by simp [after, Change.new?])
                ⟨set row proposed, by simp [after]⟩
            · have after : key (set row proposed) ≠ k := fun same => here (keyKept.symm.trans same)
              exact .kept (by simp [changesAt, Change.versions, here, after])
                (by simp [here, after])
          · cases done
            exact .kept rfl rfl
      · obtain ⟨⟨later, made⟩, deeper, same⟩ := Option.map_eq_some_iff.mp done
        cases same
        obtain ⟨fresh, distinctLater⟩ := List.nodup_cons.mp distinct
        have rests := ih (fun row member => kept row (List.mem_cons_of_mem _ member)) distinctLater
          deeper
        by_cases here : key row = k
        · -- The keys are distinct, so nothing happens to this key further on.
          have head : entryAt key ((row, touched) :: later) k =
              entryAt key ((row, touched) :: rest) k := by simp [here]
          cases rests with
          | kept silent same => exact .kept silent head
          | changed change single before unflagged after touchedAfter =>
              obtain ⟨other, found⟩ := touchedAfter
              have sameKey : key other = k := by simpa using List.find?_some found
              have member := List.mem_map_of_mem (f := fun entry : ρ × Bool => key entry.1)
                (List.mem_of_find?_eq_some found)
              exact absurd (show key row ∈ _ from here.trans sameKey.symm ▸ member) fresh
        · cases rests with
          | kept silent same => exact .kept silent (by simpa [here] using same)
          | changed change single before unflagged after touchedAfter =>
              exact .changed change single (by simpa [here] using before)
                (by simpa [here] using unflagged) (by simpa [here] using after)
                (by simpa [here] using touchedAfter)

theorem changesAt_append (earlier later : List (Change ρ)) (k : κ) :
    changesAt key (earlier ++ later) k = changesAt key earlier k ++ changesAt key later k := by
  simp [changesAt]

/-- A row that is not touched after a proposed row was there before it, untouched. -/
theorem mem_upsertOne_of_untouched {proposed : ρ} {entries entries' : List (ρ × Bool)}
    {changes : List (Change ρ)}
    (done : upsertOne target set setWhere proposed entries = some (entries', changes)) {row : ρ}
    (member : (row, false) ∈ entries') : (row, false) ∈ entries := by
  induction entries generalizing entries' changes with
  | nil =>
      cases done
      simp at member
  | cons head rest ih =>
      obtain ⟨first, touched⟩ := head
      simp only [upsertOne] at done
      split at done
      · split at done
        · cases done
        · rename_i untouched
          obtain rfl : touched = false := by simpa using untouched
          split at done
          · cases done
            exact List.mem_cons_of_mem _ (by simpa using member)
          · cases done
            exact member
      · obtain ⟨⟨later, made⟩, deeper, same⟩ := Option.map_eq_some_iff.mp done
        cases same
        rcases List.mem_cons.mp member with equal | inLater
        · exact equal ▸ List.mem_cons_self
        · exact List.mem_cons_of_mem _ (ih deeper inLater)

/-- The keys of an upsert in progress stay and grow. -/
theorem keys_upsertAll {proposed : List ρ} {entries entries' : List (ρ × Bool)}
    {changes : List (Change ρ)}
    (kept : ∀ wanted ∈ proposed, ∀ row, (row, false) ∈ entries → key (set row wanted) = key row)
    (done : upsertAll target set setWhere proposed entries = some (entries', changes)) :
    ∃ added, entries'.map (fun entry => key entry.1) =
      entries.map (fun entry => key entry.1) ++ added := by
  induction proposed generalizing entries changes with
  | nil =>
      cases done
      exact ⟨[], by simp⟩
  | cons first rest ih =>
      obtain ⟨⟨middle, made⟩, one, remaining⟩ := Option.bind_eq_some_iff.mp done
      obtain ⟨⟨last, later⟩, all, same⟩ := Option.map_eq_some_iff.mp remaining
      cases same
      obtain ⟨early, grown⟩ := keys_upsertOne (kept first List.mem_cons_self) one
      obtain ⟨late, grown'⟩ := ih (fun wanted member row inMiddle =>
        kept wanted (List.mem_cons_of_mem _ member) row (mem_upsertOne_of_untouched one inMiddle)) all
      exact ⟨early ++ late, by rw [grown', grown, List.append_assoc]⟩

theorem upsertsAt_upsertAll {proposed : List ρ} {entries entries' : List (ρ × Bool)}
    {changes : List (Change ρ)}
    (kept : ∀ wanted ∈ proposed, ∀ row, (row, false) ∈ entries → key (set row wanted) = key row)
    (distinct : (entries'.map fun entry => key entry.1).Nodup)
    (done : upsertAll target set setWhere proposed entries = some (entries', changes)) (k : κ) :
    UpsertsAt key entries entries' changes k := by
  induction proposed generalizing entries changes with
  | nil =>
      cases done
      exact .kept rfl rfl
  | cons first rest ih =>
      obtain ⟨⟨middle, made⟩, one, remaining⟩ := Option.bind_eq_some_iff.mp done
      obtain ⟨⟨last, later⟩, all, same⟩ := Option.map_eq_some_iff.mp remaining
      cases same
      have keptLater : ∀ wanted ∈ rest, ∀ row, (row, false) ∈ middle →
          key (set row wanted) = key row := fun wanted member row inMiddle =>
        kept wanted (List.mem_cons_of_mem _ member) row (mem_upsertOne_of_untouched one inMiddle)
      obtain ⟨added, grown⟩ := keys_upsertAll keptLater all
      have distinctMiddle : (middle.map fun entry => key entry.1).Nodup := by
        rw [grown] at distinct
        exact (List.nodup_append'.mp distinct).1
      cases upsertsAt_upsertOne (kept first List.mem_cons_self) distinctMiddle one k with
      | kept silent same =>
          cases ih keptLater all with
          | kept silent' same' =>
              exact .kept (by rw [changesAt_append, silent, silent', List.append_nil])
                (same'.trans same)
          | changed change single before fresh after touched =>
              exact .changed change (by rw [changesAt_append, silent, single, List.nil_append])
                (same ▸ before) (same ▸ fresh) after touched
      | changed change single before fresh after touched =>
          cases ih keptLater all with
          | kept silent' same' =>
              exact .changed change (by rw [changesAt_append, single, silent', List.append_nil])
                before fresh (same' ▸ after) (same' ▸ touched)
          | changed change' single' before' fresh' after' touched' =>
              obtain ⟨row, found⟩ := touched
              cases fresh' _ found

theorem rowAt_map_fst (entries : List (ρ × Bool)) (k : κ) :
    rowAt key (entries.map Prod.fst) k = (entryAt key entries k).map Prod.fst := by
  rw [rowAt, List.find?_map]
  rfl

/-- **An upsert changes the row with a key at most once**, whatever its conflict target is. -/
theorem editsAt_upsertRows {proposed rows : List ρ} {outcome : List ρ × List (Change ρ)}
    (kept : ∀ wanted ∈ proposed, ∀ row ∈ rows, key (set row wanted) = key row)
    (distinct : (outcome.1.map key).Nodup)
    (done : upsertRows target set setWhere proposed rows = some outcome) (k : κ) :
    EditsAt key rows outcome k := by
  obtain ⟨⟨last, made⟩, all, same⟩ := Option.map_eq_some_iff.mp done
  cases same
  have upserts : UpsertsAt key (rows.map fun row => (row, false)) last made k := upsertsAt_upsertAll
    (fun wanted member row inRows => kept wanted member row (by simpa using inRows))
    (by simpa [Function.comp_def] using distinct) all k
  cases upserts with
  | kept silent same =>
      exact .kept silent (by rw [rowAt_map_fst, same, ← rowAt_map_fst, map_fst_flag])
  | changed change single before fresh after touched =>
      refine .changed change single ?_ (by rw [rowAt_map_fst, after])
      rw [← before, ← rowAt_map_fst, map_fst_flag]

end Upsert

/-! ## Signals of a log -/

variable (key) in
/-- A reader of the log picks signals about the row with this key. Changes of other rows give
it none, and a change of a valid version of the row to a valid one carries what the signals
so far say from the old version to the new one. -/
structure Announces (k : κ) (emit : Change ρ → List ε) (read : ε → Option ν) (valid : ρ → Prop)
    (tells : List ν → Option ρ → Prop) : Prop where
  elsewhere : ∀ change : Change ρ, (∀ row ∈ change.versions, key row ≠ k) →
    (emit change).filterMap read = []
  step : ∀ (change : Change ρ) (signals : List ν),
    (∀ row ∈ change.versions, key row = k ∧ valid row) → tells signals change.old? →
      tells (signals ++ (emit change).filterMap read) change.new?

namespace Announces

variable {k : κ} {emit : Change ρ → List ε} {read : ε → Option ν} {valid : ρ → Prop}
  {tells : List ν → Option ρ → Prop}

/-- Only the changes of the row give signals. -/
theorem signals_eq (announces : Announces key k emit read valid tells)
    (changes : List (Change ρ)) : (changes.flatMap emit).filterMap read =
      ((changesAt key changes k).flatMap emit).filterMap read := by
  induction changes with
  | nil => rfl
  | cons change rest ih =>
      simp only [changesAt] at ih
      cases mentioned : change.versions.any fun row => decide (key row = k) with
      | true =>
          simp only [changesAt, List.filter_cons, mentioned, if_true, List.flatMap_cons,
            List.filterMap_append, ih]
      | false =>
          have away := announces.elsewhere change (by simpa using mentioned)
          simp only [changesAt, List.filter_cons, mentioned, Bool.false_eq_true, if_false,
            List.flatMap_cons, List.filterMap_append, away, ih, List.nil_append]

/-- **Every statement keeps what the signals say of the row.** -/
theorem statement (announces : Announces key k emit read valid tells) {rows : List ρ}
    {outcome : List ρ × List (Change ρ)} (edits : EditsAt key rows outcome k)
    (before : ∀ row, rowAt key rows k = some row → valid row)
    (after : ∀ row, rowAt key outcome.1 k = some row → valid row) {signals : List ν}
    (said : tells signals (rowAt key rows k)) :
    tells (signals ++ (outcome.2.flatMap emit).filterMap read) (rowAt key outcome.1 k) := by
  rw [announces.signals_eq]
  cases edits with
  | kept silent same => simpa [silent, same] using said
  | changed change single old new =>
      rw [single, List.flatMap_singleton, ← new]
      refine announces.step change signals (fun row mentioned => ?_) (old ▸ said)
      rcases Change.mem_versions.mp mentioned with here | here
      · exact ⟨key_of_rowAt (old ▸ here), before row (old ▸ here)⟩
      · exact ⟨key_of_rowAt (new ▸ here), after row (new ▸ here)⟩

end Announces

end Keyed

end EliteHubVault.Library
