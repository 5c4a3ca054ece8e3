import EliteHubVault.Library.OrderedMap

/-!
# The first elements of a list by an order

`ORDER BY ... LIMIT 1` takes the head of the sorted list. `IsFirst r l a` says which
element that is without sorting: a member of `l` that `r` puts before every member.
The two agree when `r` is total and transitive (`isFirst_of_head?`).

`ORDER BY ... LIMIT n` takes more. A sorted choice that passes over nothing is a front of the
sorted list (`isPrefix_of_chosen`).
-/

set_option autoImplicit false

namespace EliteHubVault.Library

variable {α : Type*} {r : α → α → Prop} {values : List α} {a b : α}

/-- A member that the order puts before every member. -/
structure IsFirst (r : α → α → Prop) (values : List α) (a : α) : Prop where
  mem : a ∈ values
  before : ∀ other ∈ values, r a other

/-- Two first elements stand before each other. -/
theorem IsFirst.mutual (first : IsFirst r values a) (second : IsFirst r values b) :
    r a b ∧ r b a :=
  ⟨first.before b second.mem, second.before a first.mem⟩

section Sorting

variable [DecidableRel r]

theorem isFirst_of_head? [Std.Total r] [IsTrans α r] (head : (values.insertionSort r).head? = some a) :
    IsFirst r values a := by
  have sorted := List.pairwise_insertionSort r values
  obtain ⟨rest, split⟩ := List.head?_eq_some_iff.mp head
  rw [split] at sorted
  have members : ∀ other, other ∈ values ↔ other = a ∨ other ∈ rest := by
    intro other
    rw [← List.mem_insertionSort r, split, List.mem_cons]
  refine ⟨(members a).mpr (.inl rfl), fun other member => ?_⟩
  rcases (members other).mp member with rfl | later
  · exact (Std.Total.total (r := r) other other).elim id id
  · exact (List.pairwise_cons.mp sorted).1 other later

theorem head?_insertionSort_eq_none : (values.insertionSort r).head? = none ↔ values = [] := by
  rw [List.head?_eq_none_iff, ← List.length_eq_zero_iff, List.length_insertionSort,
    List.length_eq_zero_iff]

end Sorting

/-- **A sorted choice that passes over no smaller element is a front of the sorted list.** -/
theorem isPrefix_of_chosen {β : Type*} [Preorder β] (rank : α → β) {all chosen : List α}
    (sorted : all.Pairwise (fun a b => rank a < rank b)) (once : chosen.Nodup)
    (inOrder : chosen.Pairwise (fun a b => rank a ≤ rank b)) (inside : chosen ⊆ all)
    (complete : ∀ a ∈ chosen, ∀ b ∈ all, rank b < rank a → b ∈ chosen) : chosen <+: all := by
  induction all generalizing chosen with
  | nil => rw [List.subset_nil.mp inside]
  | cons first later ih =>
      obtain ⟨least, laterSorted⟩ := List.pairwise_cons.mp sorted
      cases chosen with
      | nil => exact List.nil_prefix
      | cons head rest =>
          obtain ⟨lowest, inOrder⟩ := List.pairwise_cons.mp inOrder
          obtain ⟨fresh, once⟩ := List.nodup_cons.mp once
          -- The head of the choice cannot be a later element: the first one would be missed.
          obtain rfl : head = first := by
            rcases List.mem_cons.mp (inside List.mem_cons_self) with same | inLater
            · exact same
            · have before := least head inLater
              rcases List.mem_cons.mp (complete head List.mem_cons_self first List.mem_cons_self
                before) with same | inRest
              · exact same.symm
              · exact absurd before (lowest first inRest).not_gt
          refine (List.prefix_cons_inj head).mpr (ih laterSorted once inOrder (fun a member => ?_)
            fun a member b inLater before => ?_)
          · rcases List.mem_cons.mp (inside (List.mem_cons_of_mem _ member)) with rfl | inLater
            · exact absurd member fresh
            · exact inLater
          · rcases List.mem_cons.mp (complete a (List.mem_cons_of_mem _ member) b
              (List.mem_cons_of_mem _ inLater) before) with rfl | inRest
            · exact absurd (least b inLater) (lt_irrefl _)
            · exact inRest

end EliteHubVault.Library
