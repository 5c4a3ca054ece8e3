import Mathlib.Data.List.Destutter
import Mathlib.Data.List.Sort
import Mathlib.Data.Prod.Lex

/-!
# Ordered, limited and distinct rows

`ORDER BY`, `LIMIT` and `DISTINCT ON` over lists. `DISTINCT ON` keeps the first row of each
run of rows with one group. On rows that are ordered by their group and then by a key the runs
are the groups, so every group keeps one row, and that row has the least key of its group
(`exists_mem_distinctOn`). A prefix of ordered rows lies below all rows that it leaves out
(`le_of_not_mem_limit`), so what is nearest within a prefix is nearest altogether.
-/

set_option autoImplicit false

namespace EliteHubVault.Library

variable {α γ κ : Type*}

section Ordering

variable [LinearOrder κ]

/-- `ORDER BY` a key; rows with one key keep their order. -/
def orderBy (key : α → κ) (rows : List α) : List α :=
  rows.insertionSort fun row row' => key row ≤ key row'

/-- The rows in some order by a key, as `ORDER BY` may return them. -/
structure OrderedBy (key : α → κ) (rows ordered : List α) : Prop where
  perm : ordered.Perm rows
  sorted : ordered.Pairwise fun row row' => key row ≤ key row'

theorem orderedBy_orderBy (key : α → κ) (rows : List α) :
    OrderedBy key rows (orderBy key rows) where
  perm := List.perm_insertionSort _ rows
  sorted := by
    have : Std.Total fun row row' : α => key row ≤ key row' := ⟨fun row row' => le_total _ _⟩
    have : IsTrans α fun row row' => key row ≤ key row' := ⟨fun _ _ _ => le_trans⟩
    exact List.pairwise_insertionSort (fun row row' : α => key row ≤ key row') rows

theorem mem_orderBy {key : α → κ} {rows : List α} {row : α} :
    row ∈ orderBy key rows ↔ row ∈ rows :=
  (orderedBy_orderBy key rows).perm.mem_iff

/-- **What a limit leaves out is no nearer than what it keeps.** -/
theorem le_of_not_mem_limit {key : α → κ} {ordered : List α} {count : ℕ} {near far : α}
    (sorted : ordered.Pairwise fun row row' => key row ≤ key row')
    (kept : near ∈ ordered.take count) (member : far ∈ ordered)
    (left : far ∉ ordered.take count) : key near ≤ key far := by
  rw [← List.take_append_drop count ordered] at sorted member
  have dropped := (List.mem_append.mp member).resolve_left left
  exact (List.pairwise_append.mp sorted).2.2 near kept far dropped

end Ordering

section Distinct

variable [LinearOrder γ] [LinearOrder κ]

/-- `DISTINCT ON` a group: the first row of every run of one group. -/
def distinctOn (group : α → γ) (rows : List α) : List α :=
  rows.destutter fun row row' => group row ≠ group row'

theorem mem_of_mem_distinctOn {group : α → γ} {rows : List α} {row : α}
    (member : row ∈ distinctOn group rows) : row ∈ rows :=
  (List.destutter_sublist _ rows).subset member

/-- The key that orders rows by their group, and within it by a key. -/
def groupThen (group : α → γ) (key : α → κ) (row : α) : γ ×ₗ κ := toLex (group row, key row)

theorem groupThen_le_iff {group : α → γ} {key : α → κ} {row row' : α} :
    groupThen group key row ≤ groupThen group key row' ↔
      group row < group row' ∨ group row = group row' ∧ key row ≤ key row' :=
  Prod.Lex.toLex_le_toLex

variable {group : α → γ} {key : α → κ} {rows : List α}

/-- Every group is kept once. -/
theorem nodup_distinctOn
    (sorted : rows.Pairwise fun row row' => groupThen group key row ≤ groupThen group key row') :
    ((distinctOn group rows).map group).Nodup := by
  have rising : (distinctOn group rows).Pairwise fun row row' => group row ≤ group row' :=
    (sorted.imp fun le => (groupThen_le_iff.mp le).elim le_of_lt fun same => same.1.le).sublist
      (List.destutter_sublist _ rows)
  have apart : (distinctOn group rows).IsChain fun row row' => group row ≠ group row' :=
    List.isChain_destutter _ rows
  have strict : (distinctOn group rows).IsChain fun row row' => group row < group row' :=
    List.isChain_iff_getElem.mpr fun index bound =>
      lt_of_le_of_ne (List.isChain_iff_getElem.mp rising.isChain index bound)
        (List.isChain_iff_getElem.mp apart index bound)
  have : IsTrans α fun row row' => group row < group row' := ⟨fun _ _ _ => lt_trans⟩
  exact List.pairwise_map.mpr (strict.pairwise.imp fun lt => lt.ne)

theorem exists_mem_destutter' (head : α)
    (sorted : (head :: rows).Pairwise fun row row' =>
      groupThen group key row ≤ groupThen group key row') {row : α} (member : row ∈ head :: rows) :
    ∃ first ∈ rows.destutter' (fun row row' => group row ≠ group row') head,
      group first = group row ∧ key first ≤ key row := by
  induction rows generalizing head row with
  | nil =>
      obtain rfl := List.mem_singleton.mp member
      exact ⟨row, List.mem_singleton_self row, rfl, le_rfl⟩
  | cons next rest ih =>
      obtain ⟨front, later⟩ := List.pairwise_cons.mp sorted
      by_cases same : group head = group next
      · rw [List.destutter'_cons_neg _ (not_not_intro same)]
        have skipped := List.pairwise_cons.mpr
          ⟨fun other mem => front other (List.mem_cons_of_mem _ mem), later.tail⟩
        obtain rfl | inRest := List.mem_cons.mp member
        · exact ih row skipped List.mem_cons_self
        · obtain rfl | inRest := List.mem_cons.mp inRest
          · obtain ⟨first, kept, group, le⟩ := ih head skipped List.mem_cons_self
            obtain less | ⟨-, lower⟩ := groupThen_le_iff.mp (front row List.mem_cons_self)
            · exact absurd same less.ne
            · exact ⟨first, kept, group.trans same, le.trans lower⟩
          · exact ih head skipped (List.mem_cons_of_mem _ inRest)
      · rw [List.destutter'_cons_pos _ same]
        obtain rfl | inRest := List.mem_cons.mp member
        · exact ⟨row, List.mem_cons_self, rfl, le_rfl⟩
        · obtain ⟨first, kept, found⟩ := ih next later inRest
          exact ⟨first, List.mem_cons_of_mem _ kept, found⟩

/-- **Every group keeps a row of its least key.** -/
theorem exists_mem_distinctOn
    (sorted : rows.Pairwise fun row row' => groupThen group key row ≤ groupThen group key row')
    {row : α} (member : row ∈ rows) :
    ∃ first ∈ distinctOn group rows, group first = group row ∧ key first ≤ key row := by
  cases rows with
  | nil => cases member
  | cons head rest => exact exists_mem_destutter' head sorted member

end Distinct

end EliteHubVault.Library
