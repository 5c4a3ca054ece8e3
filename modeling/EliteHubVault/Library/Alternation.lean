import EliteHubVault.Library.Runs

/-!
# Alternating lists

`Alternates a b l` says that `l` is a prefix of `a, b, a, b, ...`. A list grows into an
alternating one by appending `b` after `a` and `a` otherwise (`Alternates.append`).
-/

set_option autoImplicit false

namespace EliteHubVault.Library

variable {α : Type*}

/-- The list reads `a, b, a, b, ...`. -/
def Alternates (a b : α) : List α → Prop
  | [] => True
  | x :: rest => x = a ∧ Alternates b a rest

/-- An alternating list ends in one of the two values. -/
theorem Alternates.getLast? {a b : α} {values : List α} (alternates : Alternates a b values)
    (nonempty : values ≠ []) : values.getLast? = some a ∨ values.getLast? = some b := by
  induction values generalizing a b with
  | nil => exact absurd rfl nonempty
  | cons x rest ih =>
      obtain ⟨rfl, later⟩ := alternates
      cases rest with
      | nil => exact .inl rfl
      | cons y more =>
          rw [List.getLast?_cons_cons]
          exact (ih later (by simp)).symm

/-- The next element of an alternating list is determined by its last one. -/
theorem Alternates.append {a b : α} (different : a ≠ b) {values : List α} {next : α}
    (alternates : Alternates a b values)
    (turn : (values.getLast? = some a ∧ next = b) ∨ (values.getLast? ≠ some a ∧ next = a)) :
    Alternates a b (values ++ [next]) := by
  induction values generalizing a b with
  | nil =>
      rcases turn with ⟨last, -⟩ | ⟨-, rfl⟩
      · cases last
      · exact ⟨rfl, trivial⟩
  | cons x rest ih =>
      obtain ⟨rfl, later⟩ := alternates
      refine ⟨rfl, ih different.symm later ?_⟩
      cases rest with
      | nil =>
          rcases turn with ⟨-, rfl⟩ | ⟨last, -⟩
          · exact .inr ⟨by simp, rfl⟩
          · exact absurd rfl last
      | cons y more =>
          rw [List.getLast?_cons_cons] at turn
          rcases turn with ⟨last, rfl⟩ | ⟨last, rfl⟩
          · exact .inr ⟨by simp [last, different], rfl⟩
          · exact .inl ⟨(later.getLast? (by simp)).resolve_right last, rfl⟩

end EliteHubVault.Library
