import Mathlib

/-!
# Stores whose values expire

A store maps keys to values, each with the time at which it was stored and the time from which
it is no longer served. Time only passes, so a value that is served later is served now
(`entry_of_later`). `Serves` is what a cache promises: every value that is served meets a
predicate on its key. It survives the passing of time, the removal of entries and the storing
of a value that meets the predicate.
-/

set_option autoImplicit false

namespace EliteHubVault.Library

variable {κ α : Type*}

/-- A value, when it was stored and when it expires. -/
structure Lasting (α : Type*) where
  value : α
  storedAt : ℕ
  expiresAt : ℕ

/-- A store of values that expire. -/
structure ExpiringStore (κ α : Type*) where
  entries : κ → Option (Lasting α)

namespace ExpiringStore

/-- A store without entries. -/
def empty : ExpiringStore κ α := ⟨fun _ => none⟩

/-- The entry of a key that is served at a time. -/
def entry (now : ℕ) (key : κ) (store : ExpiringStore κ α) : Option (Lasting α) :=
  (store.entries key).filter fun stored => now < stored.expiresAt

/-- The value that is served at a time. -/
def get (now : ℕ) (key : κ) (store : ExpiringStore κ α) : Option α :=
  (store.entry now key).map Lasting.value

section Update

variable [DecidableEq κ]

/-- Store a value that is served for `ttl`. -/
def set (now ttl : ℕ) (key : κ) (value : α) (store : ExpiringStore κ α) : ExpiringStore κ α :=
  ⟨Function.update store.entries key (some ⟨value, now, now + ttl⟩)⟩

def delete (key : κ) (store : ExpiringStore κ α) : ExpiringStore κ α :=
  ⟨Function.update store.entries key none⟩

end Update

/-- Every value that is served meets the predicate. -/
def Serves (p : κ → α → Prop) (now : ℕ) (store : ExpiringStore κ α) : Prop :=
  ∀ key value, store.get now key = some value → p key value

/-! ## Reading -/

theorem get_eq_some {now : ℕ} {key : κ} {value : α} {store : ExpiringStore κ α} :
    store.get now key = some value ↔ ∃ stored, store.entry now key = some stored ∧
      stored.value = value := Option.map_eq_some_iff

/-- What is served later is served now. -/
theorem entry_of_later {now later : ℕ} (passes : now ≤ later) {key : κ} {stored : Lasting α}
    {store : ExpiringStore κ α} (served : store.entry later key = some stored) :
    store.entry now key = some stored := by
  obtain ⟨present, lasts⟩ := Option.filter_eq_some_iff.mp served
  refine Option.filter_eq_some_iff.mpr ⟨present, ?_⟩
  simp only [decide_eq_true_eq] at lasts ⊢
  omega

theorem get_of_later {now later : ℕ} (passes : now ≤ later) {key : κ} {value : α}
    {store : ExpiringStore κ α} (served : store.get later key = some value) :
    store.get now key = some value := by
  obtain ⟨stored, found, same⟩ := get_eq_some.mp served
  exact get_eq_some.mpr ⟨stored, entry_of_later passes found, same⟩

@[simp] theorem get_empty (now : ℕ) (key : κ) : (empty : ExpiringStore κ α).get now key = none := rfl

section Update

variable [DecidableEq κ] {now now' ttl : ℕ} {key key' : κ} {value value' : α}
  {store : ExpiringStore κ α}

/-- An entry after a value has been stored: the new one, or one of another key. -/
theorem entry_set {stored : Lasting α}
    (served : (store.set now ttl key value).entry now' key' = some stored) :
    (key' = key ∧ stored = ⟨value, now, now + ttl⟩) ∨
      (key' ≠ key ∧ store.entry now' key' = some stored) := by
  by_cases same : key' = key
  · subst same
    simp only [entry, set, Function.update_self] at served
    exact .inl ⟨rfl, (Option.some.inj (Option.filter_eq_some_iff.mp served).1).symm⟩
  · simp only [entry, set, Function.update_of_ne same] at served
    exact .inr ⟨same, served⟩

theorem get_set (served : (store.set now ttl key value).get now' key' = some value') :
    (key' = key ∧ value' = value) ∨ (key' ≠ key ∧ store.get now' key' = some value') := by
  obtain ⟨stored, found, same⟩ := get_eq_some.mp served
  obtain ⟨here, rfl⟩ | ⟨away, found⟩ := entry_set found
  · exact .inl ⟨here, same.symm⟩
  · exact .inr ⟨away, get_eq_some.mpr ⟨stored, found, same⟩⟩

/-- Storing under another key changes nothing here. -/
theorem get_set_of_ne (away : key' ≠ key) :
    (store.set now ttl key value).get now' key' = store.get now' key' := by
  simp only [get, entry, set, Function.update_of_ne away]

theorem entry_delete {stored : Lasting α} (served : (store.delete key).entry now' key' = some stored) :
    key' ≠ key ∧ store.entry now' key' = some stored := by
  by_cases same : key' = key
  · subst same
    simp only [entry, delete, Function.update_self] at served
    cases served
  · simp only [entry, delete, Function.update_of_ne same] at served
    exact ⟨same, served⟩

theorem get_delete (served : (store.delete key).get now' key' = some value') :
    key' ≠ key ∧ store.get now' key' = some value' := by
  obtain ⟨stored, found, same⟩ := get_eq_some.mp served
  obtain ⟨away, found⟩ := entry_delete found
  exact ⟨away, get_eq_some.mpr ⟨stored, found, same⟩⟩

end Update

/-! ## What a cache promises -/

namespace Serves

variable {p : κ → α → Prop} {now later : ℕ} {store : ExpiringStore κ α}

theorem mono (serves : store.Serves p now) (passes : now ≤ later) : store.Serves p later :=
  fun key value served => serves key value (get_of_later passes served)

variable [DecidableEq κ] {ttl : ℕ} {key : κ} {value : α}

theorem set (serves : store.Serves p now) (meets : p key value) :
    (store.set now ttl key value).Serves p now := by
  intro key' value' served
  obtain ⟨rfl, rfl⟩ | ⟨-, found⟩ := get_set served
  · exact meets
  · exact serves key' value' found

theorem delete (serves : store.Serves p now) : (store.delete key).Serves p now :=
  fun key' value' served => serves key' value' (get_delete served).2

end Serves

end ExpiringStore

end EliteHubVault.Library
