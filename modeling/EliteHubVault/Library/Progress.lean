import EliteHubVault.Library.Runs

/-!
# Infinite runs and progress

An infinite run takes a step at every time. Some of its steps help: `WeaklyFair` says that
they are not put off for ever while one of them is possible. A state that waits for a goal
reaches it in every such run when one of the helping steps is possible as long as it waits, and
a rank in a well-founded order falls with each of them and grows with no step
(`eventually_of_rank`).
-/

set_option autoImplicit false

namespace EliteHubVault.Library

variable {σ α ι : Type*} {next : σ → α → Option σ}

/-- A run that never ends. -/
structure InfiniteRun (next : σ → α → Option σ) where
  state : ℕ → σ
  action : ℕ → α
  taken : ∀ n, next (state n) (action n) = some (state (n + 1))

namespace InfiniteRun

variable (run : InfiniteRun next)

/-- A later state is reached from an earlier one, by the steps that are between them. -/
theorem reaches {guard : σ → α → Prop} {n m : ℕ} (later : n ≤ m)
    (guarded : ∀ k, n ≤ k → k < m → guard (run.state k) (run.action k)) :
    Reaches next guard (run.state n) (run.state m) := by
  induction m, later using Nat.le_induction with
  | base => exact .start
  | succ m later ih =>
      exact (ih fun k before after => guarded k before (after.trans (Nat.lt_succ_self m))).step
        (guarded m later (Nat.lt_succ_self m)) (run.taken m)

/-- What a run keeps from a time on holds at all later times. -/
theorem always {p : σ → Prop} {n m : ℕ} (later : n ≤ m) (base : p (run.state n))
    (kept : ∀ k, n ≤ k → k < m → p (run.state k) → p (run.state (k + 1))) : p (run.state m) := by
  induction m, later using Nat.le_induction with
  | base => exact base
  | succ m later ih =>
      exact kept m later (Nat.lt_succ_self m)
        (ih fun k before after => kept k before (after.trans (Nat.lt_succ_self m)))

/-- **Weak fairness.** Helping steps are not put off for ever while one is possible. -/
def WeaklyFair (helps : σ → α → Prop) : Prop :=
  ∀ n, (∀ m, n ≤ m → ∃ a, helps (run.state m) a ∧ (next (run.state m) a).isSome) →
    ∃ m, n ≤ m ∧ helps (run.state m) (run.action m)

variable {run}

/-- **The rank rule.** -/
theorem WeaklyFair.eventually_of_rank [Preorder ι] [WellFoundedLT ι] {helps : σ → α → Prop}
    (fair : run.WeaklyFair helps) (rank : σ → ι) (waits goal : σ → Prop) {n : ℕ}
    (possible : ∀ m, n ≤ m → waits (run.state m) →
      ∃ a, helps (run.state m) a ∧ (next (run.state m) a).isSome)
    (kept : ∀ m, n ≤ m → waits (run.state m) → goal (run.state (m + 1)) ∨
      (waits (run.state (m + 1)) ∧ rank (run.state (m + 1)) ≤ rank (run.state m) ∧
        (helps (run.state m) (run.action m) → rank (run.state (m + 1)) < rank (run.state m))))
    (waiting : waits (run.state n)) : ∃ m, n ≤ m ∧ goal (run.state m) := by
  by_contra never
  push Not at never
  have falls : ∀ m, n ≤ m → waits (run.state m) → waits (run.state (m + 1)) ∧
      rank (run.state (m + 1)) ≤ rank (run.state m) ∧
        (helps (run.state m) (run.action m) → rank (run.state (m + 1)) < rank (run.state m)) :=
    fun m later waits => (kept m later waits).resolve_left (never (m + 1) (by omega))
  have always : ∀ m, n ≤ m → waits (run.state m) := fun m later =>
    run.always later waiting fun k before _ waits => (falls k before waits).1
  have antitone : ∀ m k, n ≤ m → m ≤ k → rank (run.state k) ≤ rank (run.state m) := by
    intro m k later after
    induction k, after using Nat.le_induction with
    | base => exact le_rfl
    | succ k after ih =>
        have step := falls k (later.trans after) (always k (later.trans after))
        exact step.2.1.trans ih
  -- Each helping step starts a later suffix with a smaller rank.
  have descends : ∀ value m, n ≤ m → rank (run.state m) = value → False := by
    intro value
    induction value using WellFoundedLT.induction with
    | ind value ih =>
        rintro m later rfl
        obtain ⟨k, after, helps⟩ := fair m fun k after =>
          possible k (later.trans after) (always k (later.trans after))
        have fallen := (falls k (later.trans after) (always k (later.trans after))).2.2 helps
        exact ih _ (fallen.trans_le (antitone m k later after)) (k + 1) (by omega) rfl
  exact descends _ n le_rfl rfl

/-- **A computed run that ends where an action changes nothing goes on for ever.** -/
theorem exists_of_execute {start s : σ} {actions : List α} {idle : α}
    (computed : execute next start actions = some s) (stays : next s idle = some s) :
    ∃ run : InfiniteRun next, run.state 0 = start ∧
      (∀ n, run.action n = actions.getD n idle) ∧ ∀ n, actions.length ≤ n → run.state n = s := by
  induction actions generalizing start with
  | nil =>
      obtain rfl : start = s := Option.some_inj.mp computed
      exact ⟨⟨fun _ => start, fun _ => idle, fun _ => stays⟩, rfl, fun _ => rfl, fun _ _ => rfl⟩
  | cons a rest ih =>
      obtain ⟨middle, taken, remaining⟩ := Option.bind_eq_some_iff.mp computed
      obtain ⟨run, begins, actions, ends⟩ := ih remaining
      refine ⟨⟨fun n => Nat.casesOn n start run.state, fun n => Nat.casesOn n a run.action, ?_⟩,
        rfl, ?_, ?_⟩
      · intro n
        cases n with
        | zero => exact taken.trans (congrArg some begins.symm)
        | succ n => exact run.taken n
      · intro n
        cases n with
        | zero => rfl
        | succ n => exact actions n
      · intro n later
        cases n with
        | zero => exact absurd later (Nat.not_succ_le_zero _)
        | succ n => exact ends n (Nat.le_of_succ_le_succ later)

end InfiniteRun

end EliteHubVault.Library
