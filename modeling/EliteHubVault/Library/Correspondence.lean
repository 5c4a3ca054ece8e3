import Mathlib.Data.List.Forall2
import Mathlib.Data.List.Perm.Basic

/-!
# Rows that stand for elements

A list of rows has one row for each element of another list when the rows, in some order,
relate to the elements one by one.
-/

set_option autoImplicit false

namespace EliteHubVault.Library

variable {ρ σ α : Type*} {relates : ρ → α → Prop}

/-- The rows are one for each of the elements, in some order. -/
def OneForEach (relates : ρ → α → Prop) (rows : List ρ) (elements : List α) : Prop :=
  ∃ ordered, ordered.Perm rows ∧ List.Forall₂ relates ordered elements

theorem exists_forall₂_of_present {rows : List ρ} {elements : List α}
    (present : ∀ element ∈ elements, ∃ row ∈ rows, relates row element) :
    ∃ ordered, List.Forall₂ relates ordered elements ∧ ∀ row ∈ ordered, row ∈ rows := by
  induction elements with
  | nil => exact ⟨[], .nil, by simp⟩
  | cons element rest ih =>
      obtain ⟨row, member, related⟩ := present element List.mem_cons_self
      obtain ⟨ordered, all, inRows⟩ := ih fun later inRest =>
        present later (List.mem_cons_of_mem _ inRest)
      refine ⟨row :: ordered, .cons related all, fun other here => ?_⟩
      rcases List.mem_cons.mp here with rfl | later
      · exact member
      · exact inRows other later

theorem exists_of_forall₂ {ordered : List ρ} {elements : List α}
    (all : List.Forall₂ relates ordered elements) :
    (∀ row ∈ ordered, ∃ element ∈ elements, relates row element) ∧
      ∀ element ∈ elements, ∃ row ∈ ordered, relates row element := by
  induction all with
  | nil => simp
  | cons related _ ih =>
      simp only [List.mem_cons, forall_eq_or_imp, exists_eq_or_imp]
      exact ⟨⟨.inl related, fun row member => .inr (ih.1 row member)⟩,
        .inl related, fun element member => .inr (ih.2 element member)⟩

/-- Two correspondences after one another. -/
theorem forall₂_comp {relates₁ : ρ → σ → Prop} {relates₂ : σ → α → Prop}
    (both : ∀ row middle element, relates₁ row middle → relates₂ middle element →
      relates row element) {rows : List ρ} {middles : List σ} {elements : List α}
    (first : List.Forall₂ relates₁ rows middles) (second : List.Forall₂ relates₂ middles elements) :
    List.Forall₂ relates rows elements := by
  induction first generalizing elements with
  | nil =>
      cases second
      exact .nil
  | cons related _ ih =>
      cases second with
      | cons related' later => exact .cons (both _ _ _ related related') (ih later)

/-- What an indexed reading of the elements gives, one by one. -/
theorem forall₂_of_mapIdx {read : ℕ → α → Option ρ} {rows : List ρ} {elements : List α}
    (all : elements.mapIdx read = rows.map some) :
    List.Forall₂ (fun row element => ∃ index, read index element = some row) rows elements := by
  induction elements generalizing rows read with
  | nil =>
      obtain rfl := List.map_eq_nil_iff.mp all.symm
      exact .nil
  | cons element rest ih =>
      rw [List.mapIdx_cons] at all
      cases rows with
      | nil => cases all
      | cons row rows =>
          obtain ⟨first, later⟩ := List.cons.inj all
          refine .cons ⟨0, first⟩ ((ih later).imp fun row element found => ?_)
          obtain ⟨index, found⟩ := found
          exact ⟨index + 1, found⟩

theorem OneForEach.nil : OneForEach relates [] [] := ⟨[], .nil, .nil⟩

theorem OneForEach.imp {relates' : ρ → α → Prop} {rows : List ρ} {elements : List α}
    (kept : ∀ row element, relates row element → relates' row element)
    (one : OneForEach relates rows elements) : OneForEach relates' rows elements := by
  obtain ⟨ordered, perm, all⟩ := one
  exact ⟨ordered, perm, all.imp kept⟩

theorem OneForEach.map {relates' : ρ → α → Prop} {rows : List ρ} {elements : List α} {f : ρ → ρ}
    (kept : ∀ row element, relates row element → relates' (f row) element)
    (one : OneForEach relates rows elements) : OneForEach relates' (rows.map f) elements := by
  obtain ⟨ordered, perm, all⟩ := one
  exact ⟨ordered.map f, perm.map f, List.forall₂_map_left_iff.mpr (all.imp kept)⟩

/-- Rows that are found for every element, stand for one each and are told apart by it. -/
theorem oneForEach_of {rows : List ρ} {elements : List α} (distinct : rows.Nodup)
    (apart : elements.Pairwise fun element element' =>
      ∀ row, relates row element → ¬ relates row element')
    (present : ∀ element ∈ elements, ∃ row ∈ rows, relates row element)
    (only : ∀ row ∈ rows, ∃ element ∈ elements, relates row element)
    (unique : ∀ row ∈ rows, ∀ row' ∈ rows, ∀ element ∈ elements, relates row element →
      relates row' element → row = row') : OneForEach relates rows elements := by
  obtain ⟨ordered, all, inRows⟩ := exists_forall₂_of_present present
  have once : ordered.Nodup := by
    clear present only inRows unique
    induction all with
    | nil => exact List.nodup_nil
    | @cons row element ordered rest related all ih =>
        obtain ⟨here, later⟩ := List.pairwise_cons.mp apart
        refine List.nodup_cons.mpr ⟨fun again => ?_, ih later⟩
        obtain ⟨other, inRest, related'⟩ := (exists_of_forall₂ all).1 row again
        exact here other inRest row related related'
  refine ⟨ordered, (List.perm_ext_iff_of_nodup once distinct).mpr fun row =>
    ⟨inRows row, fun member => ?_⟩, all⟩
  obtain ⟨element, listed, related⟩ := only row member
  obtain ⟨row', inOrdered, related'⟩ := (exists_of_forall₂ all).2 element listed
  rwa [unique row member row' (inRows row' inOrdered) element listed related related']

end EliteHubVault.Library
