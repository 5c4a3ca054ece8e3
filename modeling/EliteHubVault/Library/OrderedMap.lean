import EliteHubVault.Library.Table

/-!
# Insertion-ordered maps and sets

`OrderedMap κ α` is a map that keeps its keys in insertion order, as JavaScript's
`Map` does: setting a key that is present replaces its value in place, setting a
new key appends it. No key occurs twice, which the structure carries as a field.
A table with one unique key is the same thing.

Sets in insertion order are duplicate-free lists; `addOnce` adds an element at the
end unless it is present.
-/

set_option autoImplicit false

namespace EliteHubVault.Library

variable {κ α : Type*}

/-- A map whose keys are in insertion order and occur once. -/
structure OrderedMap (κ α : Type*) where
  entries : List (κ × α)
  nodupKeys : (entries.map Prod.fst).Nodup

namespace OrderedMap

/-- The map without entries. -/
def empty : OrderedMap κ α := ⟨[], List.nodup_nil⟩

/-- The keys in insertion order. -/
def keys (m : OrderedMap κ α) : List κ := m.entries.map Prod.fst

/-- The number of entries. -/
def size (m : OrderedMap κ α) : ℕ := m.entries.length

@[ext] theorem ext {m m' : OrderedMap κ α} (same : m.entries = m'.entries) : m = m' := by
  cases m
  cases m'
  cases same
  rfl

/-- Apply a function to every value. -/
def mapValues (f : κ → α → α) (m : OrderedMap κ α) : OrderedMap κ α where
  entries := m.entries.map fun entry => (entry.1, f entry.1 entry.2)
  nodupKeys := by
    rw [List.map_map]
    exact m.nodupKeys

variable [DecidableEq κ]

/-- Replace the value of a key in place, or append the key. -/
def setEntry (k : κ) (a : α) : List (κ × α) → List (κ × α)
  | [] => [(k, a)]
  | (k', a') :: rest => if k' = k then (k, a) :: rest else (k', a') :: setEntry k a rest

/-- The value of a key. -/
def getEntry (k : κ) : List (κ × α) → Option α
  | [] => none
  | (k', a) :: rest => if k' = k then some a else getEntry k rest

theorem keys_setEntry (k : κ) (a : α) (entries : List (κ × α)) :
    (setEntry k a entries).map Prod.fst =
      if k ∈ entries.map Prod.fst then entries.map Prod.fst else entries.map Prod.fst ++ [k] := by
  induction entries with
  | nil => simp [setEntry]
  | cons head rest ih =>
      obtain ⟨k', a'⟩ := head
      by_cases same : k' = k
      · simp [setEntry, same]
      · simp only [setEntry, if_neg same, List.map_cons, ih, List.mem_cons, Ne.symm same, false_or]
        split <;> simp

/-- `Map.prototype.get`. -/
def get (m : OrderedMap κ α) (k : κ) : Option α := getEntry k m.entries

/-- `Map.prototype.set`. -/
def set (m : OrderedMap κ α) (k : κ) (a : α) : OrderedMap κ α where
  entries := setEntry k a m.entries
  nodupKeys := by
    rw [keys_setEntry]
    split
    · exact m.nodupKeys
    · rename_i absent
      exact m.nodupKeys.append (List.nodup_singleton k) (by simpa using absent)

/-- `Map.prototype.delete`. -/
def delete (m : OrderedMap κ α) (k : κ) : OrderedMap κ α where
  entries := m.entries.filter fun entry => entry.1 ≠ k
  nodupKeys := m.nodupKeys.sublist (List.filter_sublist.map Prod.fst)

theorem getEntry_eq_some_iff {k : κ} {a : α} {entries : List (κ × α)}
    (nodup : (entries.map Prod.fst).Nodup) :
    getEntry k entries = some a ↔ (k, a) ∈ entries := by
  induction entries with
  | nil => simp [getEntry]
  | cons head rest ih =>
      obtain ⟨k', a'⟩ := head
      simp only [List.map_cons, List.nodup_cons] at nodup
      by_cases same : k' = k
      · subst same
        have absent : (k', a) ∉ rest := fun member => nodup.1 (List.mem_map_of_mem member)
        simp [getEntry, absent, eq_comm]
      · simp [getEntry, same, ih nodup.2, Ne.symm same]

theorem getEntry_eq_none_iff {k : κ} {entries : List (κ × α)} :
    getEntry k entries = none ↔ k ∉ entries.map Prod.fst := by
  induction entries with
  | nil => simp [getEntry]
  | cons head rest ih =>
      obtain ⟨k', a'⟩ := head
      by_cases same : k' = k
      · simp [getEntry, same]
      · simp [getEntry, same, ih, Ne.symm same]

theorem get_eq_some_iff {m : OrderedMap κ α} {k : κ} {a : α} :
    m.get k = some a ↔ (k, a) ∈ m.entries :=
  getEntry_eq_some_iff m.nodupKeys

theorem get_eq_none_iff {m : OrderedMap κ α} {k : κ} : m.get k = none ↔ k ∉ m.keys :=
  getEntry_eq_none_iff

theorem get_isSome_iff {m : OrderedMap κ α} {k : κ} : (m.get k).isSome ↔ k ∈ m.keys := by
  rw [← not_iff_not, ← get_eq_none_iff, Option.not_isSome_iff_eq_none]

@[simp] theorem get_empty (k : κ) : (empty : OrderedMap κ α).get k = none := rfl

@[simp] theorem get_set_self (m : OrderedMap κ α) (k : κ) (a : α) : (m.set k a).get k = some a := by
  obtain ⟨entries, _⟩ := m
  simp only [get, set]
  induction entries with
  | nil => simp [setEntry, getEntry]
  | cons head rest ih =>
      rename_i nodup
      obtain ⟨k', a'⟩ := head
      by_cases same : k' = k
      · simp [setEntry, getEntry, same]
      · simp only [setEntry, getEntry, if_neg same]
        exact ih (List.nodup_cons.mp nodup).2

theorem get_set_of_ne (m : OrderedMap κ α) {k k' : κ} (a : α) (other : k' ≠ k) :
    (m.set k a).get k' = m.get k' := by
  obtain ⟨entries, nodup⟩ := m
  simp only [get, set]
  clear nodup
  induction entries with
  | nil => simp [setEntry, getEntry, Ne.symm other]
  | cons head rest ih =>
      obtain ⟨j, a'⟩ := head
      by_cases same : j = k
      · subst same
        simp [setEntry, getEntry, Ne.symm other]
      · simp only [setEntry, getEntry, if_neg same, ih]

theorem get_set (m : OrderedMap κ α) (k k' : κ) (a : α) :
    (m.set k a).get k' = if k' = k then some a else m.get k' := by
  split
  · rename_i same
    rw [same, get_set_self]
  · rename_i other
    exact get_set_of_ne m a other

@[simp] theorem get_delete_self (m : OrderedMap κ α) (k : κ) : (m.delete k).get k = none := by
  rw [get_eq_none_iff]
  simp [keys, delete]

theorem get_delete_of_ne (m : OrderedMap κ α) {k k' : κ} (other : k' ≠ k) :
    (m.delete k).get k' = m.get k' := by
  refine Option.ext fun a => ?_
  simp [get_eq_some_iff, delete, other]

theorem get_delete (m : OrderedMap κ α) (k k' : κ) :
    (m.delete k).get k' = if k' = k then none else m.get k' := by
  split
  · rename_i same
    rw [same, get_delete_self]
  · rename_i other
    exact get_delete_of_ne m other

/-- What is left after a deletion is another entry and was there before. -/
theorem get_of_get_delete {m : OrderedMap κ α} {k k' : κ} {a : α}
    (found : (m.delete k).get k' = some a) : k' ≠ k ∧ m.get k' = some a := by
  rw [get_delete] at found
  split at found
  · cases found
  · rename_i different
    exact ⟨different, found⟩

theorem mem_keys_set {m : OrderedMap κ α} {k k' : κ} {a : α} :
    k' ∈ (m.set k a).keys ↔ k' = k ∨ k' ∈ m.keys := by
  rw [← get_isSome_iff, get_set, ← get_isSome_iff]
  split <;> simp [*]

theorem mem_keys_delete {m : OrderedMap κ α} {k k' : κ} :
    k' ∈ (m.delete k).keys ↔ k' ≠ k ∧ k' ∈ m.keys := by
  rw [← get_isSome_iff, get_delete, ← get_isSome_iff]
  split <;> simp [*]

theorem mem_entries_set {m : OrderedMap κ α} {k : κ} {a : α} {entry : κ × α} :
    entry ∈ (m.set k a).entries ↔ entry = (k, a) ∨ (entry.1 ≠ k ∧ entry ∈ m.entries) := by
  obtain ⟨k', a'⟩ := entry
  rw [← get_eq_some_iff, get_set, ← get_eq_some_iff]
  split
  · rename_i same
    simp [same, eq_comm]
  · rename_i other
    simp [other]

theorem get_mapValues (f : κ → α → α) (m : OrderedMap κ α) (k : κ) :
    (m.mapValues f).get k = (m.get k).map (f k) := by
  obtain ⟨entries, nodup⟩ := m
  simp only [get, mapValues]
  clear nodup
  induction entries with
  | nil => rfl
  | cons head rest ih =>
      obtain ⟨k', a⟩ := head
      by_cases same : k' = k
      · subst same
        simp [getEntry]
      · simpa [getEntry, same] using ih

/-- Set each of these keys to a value that depends on the key. -/
def setAll (keys : List κ) (value : κ → α) (m : OrderedMap κ α) : OrderedMap κ α :=
  keys.foldl (fun m k => m.set k (value k)) m

theorem get_setAll (keys : List κ) (value : κ → α) (m : OrderedMap κ α) (k : κ) :
    (m.setAll keys value).get k = if k ∈ keys then some (value k) else m.get k := by
  induction keys generalizing m with
  | nil => simp [setAll]
  | cons head rest ih =>
      simp only [setAll, List.foldl_cons] at ih ⊢
      rw [ih, get_set]
      by_cases later : k ∈ rest
      · simp [later]
      · by_cases here : k = head <;> simp [later, here]

/-- The number of values with a property. -/
def count (p : α → Prop) [DecidablePred p] (m : OrderedMap κ α) : ℕ :=
  m.entries.countP fun entry => p entry.2

section Count

variable (p : α → Prop) [DecidablePred p]

theorem countP_setEntry_of_get (k : κ) (a b : α) (entries : List (κ × α))
    (known : getEntry k entries = some a) :
    (setEntry k b entries).countP (fun entry => p entry.2) + (if p a then 1 else 0) =
      entries.countP (fun entry => p entry.2) + if p b then 1 else 0 := by
  induction entries with
  | nil => cases known
  | cons head rest ih =>
      obtain ⟨k', a'⟩ := head
      by_cases same : k' = k
      · rw [getEntry, if_pos same] at known
        cases known
        simp only [setEntry, if_pos same, List.countP_cons, decide_eq_true_eq]
        omega
      · rw [getEntry, if_neg same] at known
        have counted := ih known
        simp only [setEntry, if_neg same, List.countP_cons, decide_eq_true_eq]
        omega

theorem countP_setEntry_of_none (k : κ) (b : α) (entries : List (κ × α))
    (unknown : getEntry k entries = none) :
    (setEntry k b entries).countP (fun entry => p entry.2) =
      entries.countP (fun entry => p entry.2) + if p b then 1 else 0 := by
  induction entries with
  | nil => simp [setEntry, List.countP_cons]
  | cons head rest ih =>
      obtain ⟨k', a'⟩ := head
      by_cases same : k' = k
      · rw [getEntry, if_pos same] at unknown
        cases unknown
      · rw [getEntry, if_neg same] at unknown
        have counted := ih unknown
        simp only [setEntry, if_neg same, List.countP_cons, decide_eq_true_eq]
        omega

/-- A value that is replaced no longer counts, and its replacement does. -/
theorem count_set_of_get {m : OrderedMap κ α} {k : κ} {a : α} (known : m.get k = some a) (b : α) :
    (m.set k b).count p + (if p a then 1 else 0) = m.count p + if p b then 1 else 0 :=
  countP_setEntry_of_get p k a b m.entries known

theorem count_set_of_none {m : OrderedMap κ α} {k : κ} (unknown : m.get k = none) (b : α) :
    (m.set k b).count p = m.count p + if p b then 1 else 0 :=
  countP_setEntry_of_none p k b m.entries unknown

omit [DecidableEq κ] in
theorem count_mapValues {f : κ → α → α} (m : OrderedMap κ α) (same : ∀ k a, p (f k a) ↔ p a) :
    (m.mapValues f).count p = m.count p := by
  unfold count mapValues
  rw [List.countP_map]
  refine List.countP_congr fun entry _ => ?_
  simp [same]

end Count

end OrderedMap

/-! ## Ordered sets -/

/-- `Set.prototype.add`: add an element at the end unless it is present. -/
def addOnce [DecidableEq κ] (k : κ) (set : List κ) : List κ :=
  if k ∈ set then set else set ++ [k]

@[simp] theorem mem_addOnce [DecidableEq κ] {k k' : κ} {set : List κ} :
    k' ∈ addOnce k set ↔ k' = k ∨ k' ∈ set := by
  unfold addOnce
  split
  · rename_i present
    constructor
    · exact .inr
    · rintro (rfl | member)
      · exact present
      · exact member
  · simp [or_comm]

theorem nodup_addOnce [DecidableEq κ] {k : κ} {set : List κ} (nodup : set.Nodup) :
    (addOnce k set).Nodup := by
  unfold addOnce
  split
  · exact nodup
  · rename_i absent
    exact nodup.append (List.nodup_singleton k) (by simpa using absent)

/-- The elements of a list, each once, in the order of their first occurrence:
`Array.from(new Set(values))`. -/
def distinct [DecidableEq κ] (values : List κ) : List κ :=
  values.foldl (fun set value => addOnce value set) []

theorem distinct_append_singleton [DecidableEq κ] (values : List κ) (value : κ) :
    distinct (values ++ [value]) = addOnce value (distinct values) := by
  simp [distinct, List.foldl_append]

theorem mem_foldl_addOnce [DecidableEq κ] {k : κ} {values set : List κ} :
    k ∈ values.foldl (fun set value => addOnce value set) set ↔ k ∈ set ∨ k ∈ values := by
  induction values generalizing set with
  | nil => simp
  | cons value rest ih =>
      rw [List.foldl_cons, ih, mem_addOnce, List.mem_cons]
      tauto

@[simp] theorem mem_distinct [DecidableEq κ] {k : κ} {values : List κ} :
    k ∈ distinct values ↔ k ∈ values := by
  simp [distinct, mem_foldl_addOnce]

theorem nodup_foldl_addOnce [DecidableEq κ] {values set : List κ} (nodup : set.Nodup) :
    (values.foldl (fun set value => addOnce value set) set).Nodup := by
  induction values generalizing set with
  | nil => exact nodup
  | cons value rest ih => exact ih (nodup_addOnce nodup)

theorem nodup_distinct [DecidableEq κ] (values : List κ) : (distinct values).Nodup :=
  nodup_foldl_addOnce List.nodup_nil

/-- A reader that knows one value sees it at most once in a list without duplicates. -/
theorem filterMap_of_nodup {α : Type*} [DecidableEq κ] {values : List κ} (nodup : values.Nodup)
    (k : κ) (a : α) : values.filterMap (fun value => if value = k then some a else none) =
      if k ∈ values then [a] else [] := by
  induction values with
  | nil => rfl
  | cons value rest ih =>
      obtain ⟨fresh, later⟩ := List.nodup_cons.mp nodup
      by_cases here : value = k
      · subst here
        simp [ih later, fresh]
      · simp [here, Ne.symm here, ih later]

end EliteHubVault.Library
