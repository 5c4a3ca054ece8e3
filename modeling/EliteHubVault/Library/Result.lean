import EliteHubVault.Library.Runs

/-!
# Fallible computations and rollback

A transaction is a computation in `Except`. `bind_eq_ok` peels a successful one apart.
`committed` is the state that a transaction leaves: the computed one, or the one it began
in when it failed.
-/

set_option autoImplicit false

namespace EliteHubVault.Library

universe u

variable {ε σ : Type*} {α β : Type u}

/-- The value, or a failure. -/
def orFail (error : ε) : Option α → Except ε α
  | some a => .ok a
  | none => .error error

@[simp] theorem orFail_eq_ok {error : ε} {value : Option α} {a : α} :
    orFail error value = .ok a ↔ value = some a := by
  cases value <;> simp [orFail]

@[simp] theorem bind_eq_ok {x : Except ε α} {f : α → Except ε β} {b : β} :
    x >>= f = .ok b ↔ ∃ a, x = .ok a ∧ f a = .ok b := by
  cases x <;> simp [bind, Except.bind]

@[simp] theorem pure_eq_ok {a b : α} : (pure a : Except ε α) = .ok b ↔ a = b := by
  simp [pure, Except.pure]

@[simp] theorem throw_ne_ok {error : ε} {a : α} : (throw error : Except ε α) ≠ .ok a := by
  simp [throw, throwThe, MonadExceptOf.throw]

/-- A list of validated values. -/
theorem mapM_id_eq_some {values : List (Option α)} {valid : List α} :
    values.mapM id = some valid ↔ values = valid.map some := by
  induction values generalizing valid with
  | nil => cases valid <;> simp
  | cons value rest ih =>
      cases value with
      | none => cases valid <;> simp
      | some a => cases valid <;> simp [Option.bind_eq_some_iff, ih, and_comm]

/-- A reading that succeeds for all values leaves none out. -/
theorem filterMap_of_mapM {f : α → Option β} {values : List α} {results : List β}
    (all : values.mapM f = some results) : values.filterMap f = results := by
  induction values generalizing results with
  | nil =>
      cases all
      rfl
  | cons value rest ih =>
      simp only [List.mapM_cons, Option.bind_eq_bind, Option.bind_eq_some_iff, Option.pure_def,
        Option.some.injEq] at all
      obtain ⟨result, found, later, others, rfl⟩ := all
      rw [List.filterMap_cons_some found, ih others]

/-- The state after a transaction: a failed one is rolled back. -/
def committed (before : σ) : Except ε σ → σ
  | .ok after => after
  | .error _ => before

theorem committed_eq (before : σ) (result : Except ε σ) :
    committed before result = before ∨ ∃ after, result = .ok after ∧
      committed before result = after := by
  cases result with
  | error _ => exact .inl rfl
  | ok after => exact .inr ⟨after, rfl, rfl⟩

@[simp] theorem toOption_eq_some {result : Except ε σ} {after : σ} :
    result.toOption = some after ↔ result = .ok after := by
  cases result <;> simp [Except.toOption]

/-- What was read off a success is read off some value. -/
theorem exists_ok_of_toOption_map {β : Type} {result : Except ε σ} {read : σ → β} {value : β}
    (observed : result.toOption.map read = some value) :
    ∃ after, result = .ok after ∧ read after = value := by
  obtain ⟨after, ended, observed⟩ := Option.map_eq_some_iff.mp observed
  exact ⟨after, toOption_eq_some.mp ended, observed⟩

end EliteHubVault.Library
