import Mathlib

/-!
# Runs of a partial step function

A machine is given by a partial function `next : σ → α → Option σ`. An action
carries every choice the environment makes, so `next` is a function, and an
action that is not enabled has no successor.

`Reaches next guard start` holds of the states reached from `start` by actions
that satisfy `guard` in the state they are taken in. The guard expresses a
condition on a run, step by step; `Reachable` is the case where it is trivial.
`execute` runs a list of actions, and `Reaches.of_execute` turns a computed run
into a reached state.
-/

set_option autoImplicit false

namespace EliteHubVault.Library

variable {σ τ α β : Type*}

/-- The states reached from `start` by actions that satisfy `guard` where they are taken. -/
inductive Reaches (next : σ → α → Option σ) (guard : σ → α → Prop) (start : σ) : σ → Prop where
  | start : Reaches next guard start start
  | step {s s' : σ} {a : α} : Reaches next guard start s → guard s a → next s a = some s' →
      Reaches next guard start s'

/-- The states reached from `start` by any actions. -/
abbrev Reachable (next : σ → α → Option σ) (start : σ) : σ → Prop :=
  Reaches next (fun _ _ => True) start

namespace Reaches

variable {next : σ → α → Option σ} {guard : σ → α → Prop} {start : σ}

/-- What holds at the start and is kept by every admitted step holds of every state reached. -/
theorem invariant {inv : σ → Prop} (base : inv start)
    (kept : ∀ s a s', inv s → guard s a → next s a = some s' → inv s')
    {s : σ} (reached : Reaches next guard start s) : inv s := by
  induction reached with
  | start => exact base
  | step _ admitted taken ih => exact kept _ _ _ ih admitted taken

theorem trans {s t : σ} (first : Reaches next guard start s) (second : Reaches next guard s t) :
    Reaches next guard start t := by
  induction second with
  | start => exact first
  | step _ admitted taken ih => exact ih.step admitted taken

/-- A weaker guard admits more runs. -/
theorem mono {weaker : σ → α → Prop} (weaken : ∀ s a, guard s a → weaker s a)
    {s : σ} (reached : Reaches next guard start s) : Reaches next weaker start s := by
  induction reached with
  | start => exact .start
  | step _ admitted taken ih => exact ih.step (weaken _ _ admitted) taken

theorem reachable {s : σ} (reached : Reaches next guard start s) : Reachable next start s :=
  reached.mono fun _ _ _ => trivial

/-- A map that carries every step to a run carries every run to a run. -/
theorem simulate {next' : τ → β → Option τ} {guard' : τ → β → Prop} (abstraction : σ → τ)
    (simulated : ∀ s a s', guard s a → next s a = some s' →
      Reaches next' guard' (abstraction s) (abstraction s'))
    {s : σ} (reached : Reaches next guard start s) :
    Reaches next' guard' (abstraction start) (abstraction s) := by
  induction reached with
  | start => exact .start
  | step _ admitted taken ih => exact ih.trans (simulated _ _ _ admitted taken)

end Reaches

/-- Run a list of actions. -/
def execute (next : σ → α → Option σ) : σ → List α → Option σ
  | s, [] => some s
  | s, a :: rest => (next s a).bind fun s' => execute next s' rest

/-- A run that computes reaches its last state, when its actions are admitted wherever they
are taken. -/
theorem Reaches.of_execute {next : σ → α → Option σ} {guard : σ → α → Prop} {start s : σ}
    {actions : List α} (admitted : ∀ a ∈ actions, ∀ s, guard s a)
    (computed : execute next start actions = some s) : Reaches next guard start s := by
  induction actions generalizing start with
  | nil =>
      obtain rfl : start = s := by simpa [execute] using computed
      exact .start
  | cons a rest ih =>
      obtain ⟨middle, taken, remaining⟩ := Option.bind_eq_some_iff.mp computed
      exact (Reaches.start.step (admitted a List.mem_cons_self start) taken).trans
        (ih (fun b member => admitted b (List.mem_cons_of_mem a member)) remaining)

/-- A property of the last state of a computed run holds of a state reached. -/
theorem exists_reaches_of_execute (next : σ → α → Option σ) (guard : σ → α → Prop) (start : σ)
    (actions : List α) (p : σ → Bool) (admitted : ∀ a ∈ actions, ∀ s, guard s a)
    (computed : (execute next start actions).any p = true) :
    ∃ s, Reaches next guard start s ∧ p s = true := by
  cases run : execute next start actions with
  | none => simp [run] at computed
  | some s => exact ⟨s, .of_execute admitted run, by simpa [run] using computed⟩

/-- A property of the last state of a computed run holds of a reachable state. -/
theorem exists_reachable_of_execute (next : σ → α → Option σ) (start : σ) (actions : List α)
    (p : σ → Bool) (computed : (execute next start actions).any p = true) :
    ∃ s, Reachable next start s ∧ p s = true :=
  exists_reaches_of_execute next _ start actions p (fun _ _ _ => trivial) computed

/-- The steps that meet a decidable guard. -/
def admitted (next : σ → α → Option σ) (guard : σ → α → Prop) [∀ s a, Decidable (guard s a)]
    (s : σ) (a : α) : Option σ :=
  if guard s a then next s a else none

/-- A run of admitted steps meets the guard. -/
theorem Reaches.of_admitted {next : σ → α → Option σ} {guard : σ → α → Prop}
    [∀ s a, Decidable (guard s a)] {start s : σ} (reached : Reachable (admitted next guard) start s) :
    Reaches next guard start s := by
  induction reached with
  | start => exact .start
  | step _ _ taken ih =>
      obtain ⟨meets, taken⟩ := Option.ite_none_right_eq_some.mp taken
      exact ih.step meets taken

end EliteHubVault.Library
