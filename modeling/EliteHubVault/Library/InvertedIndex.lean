import EliteHubVault.Library.OrderedMap

/-!
# Inverted indexes

An inverted index is a map from keys to duplicate-free lists of ids. `addIds` enters an id under
a list of keys, `removeIds` takes it out again and drops the keys that are left without ids.

`Lists index has` says that the index is the inverse of a relation: under each key it has
exactly the ids that have the key. Adding and removing an id keep the two inverse to each other.
-/

set_option autoImplicit false
set_option linter.unusedSectionVars false

namespace EliteHubVault.Library

namespace OrderedMap

variable {κ ι : Type*} [DecidableEq κ] [DecidableEq ι]

/-- The ids under a key. -/
def idsAt (index : OrderedMap κ (List ι)) (k : κ) : List ι := (index.get k).getD []

def addId (id : ι) (index : OrderedMap κ (List ι)) (k : κ) : OrderedMap κ (List ι) :=
  index.set k (addOnce id (index.idsAt k))

/-- Enter an id under each of these keys. -/
def addIds (id : ι) (keys : List κ) (index : OrderedMap κ (List ι)) : OrderedMap κ (List ι) :=
  keys.foldl (addId id) index

def removeId (id : ι) (index : OrderedMap κ (List ι)) (k : κ) : OrderedMap κ (List ι) :=
  match index.get k with
  | none => index
  | some ids =>
      let rest := ids.filter fun other => other ≠ id
      if rest = [] then index.delete k else index.set k rest

/-- Take an id out from under each of these keys. -/
def removeIds (id : ι) (keys : List κ) (index : OrderedMap κ (List ι)) : OrderedMap κ (List ι) :=
  keys.foldl (removeId id) index

theorem idsAt_addId (id : ι) (index : OrderedMap κ (List ι)) (k k' : κ) :
    (index.addId id k).idsAt k' =
      if k' = k then addOnce id (index.idsAt k) else index.idsAt k' := by
  rw [addId, idsAt, get_set]
  split <;> rfl

theorem idsAt_removeId (id : ι) (index : OrderedMap κ (List ι)) (k k' : κ) :
    (index.removeId id k).idsAt k' =
      if k' = k then (index.idsAt k).filter (fun other => other ≠ id) else index.idsAt k' := by
  unfold removeId idsAt
  cases known : index.get k with
  | none =>
      by_cases same : k' = k
      · simp [same, known]
      · simp [same]
  | some ids =>
      by_cases empty : ids.filter (fun other => other ≠ id) = []
      · simp only [empty, if_true, get_delete]
        by_cases same : k' = k
        · simp only [same, if_true, Option.getD_none, Option.getD_some, empty]
        · simp [same]
      · simp only [empty, if_false, get_set]
        by_cases same : k' = k
        · simp [same]
        · simp [same]

/-- An id that is entered under keys is under these keys as well. -/
theorem mem_idsAt_addIds {id id' : ι} {keys : List κ} {index : OrderedMap κ (List ι)} {k : κ} :
    id' ∈ (index.addIds id keys).idsAt k ↔ id' ∈ index.idsAt k ∨ (id' = id ∧ k ∈ keys) := by
  induction keys generalizing index with
  | nil => simp [addIds]
  | cons key rest ih =>
      rw [addIds, List.foldl_cons]
      refine ih.trans ?_
      rw [idsAt_addId, List.mem_cons]
      by_cases same : k = key
      · subst same
        rw [if_pos rfl, mem_addOnce]
        tauto
      · simp [same]

/-- An id that is taken out from under keys is under these keys no longer. -/
theorem mem_idsAt_removeIds {id id' : ι} {keys : List κ} {index : OrderedMap κ (List ι)} {k : κ} :
    id' ∈ (index.removeIds id keys).idsAt k ↔ id' ∈ index.idsAt k ∧ ¬ (id' = id ∧ k ∈ keys) := by
  induction keys generalizing index with
  | nil => simp [removeIds]
  | cons key rest ih =>
      rw [removeIds, List.foldl_cons]
      refine ih.trans ?_
      rw [idsAt_removeId, List.mem_cons]
      by_cases same : k = key
      · subst same
        simp only [if_true, List.mem_filter, decide_eq_true_eq]
        tauto
      · simp [same]

theorem nodup_idsAt_addIds {id : ι} {keys : List κ} {index : OrderedMap κ (List ι)}
    (nodup : ∀ k, (index.idsAt k).Nodup) (k : κ) : ((index.addIds id keys).idsAt k).Nodup := by
  induction keys generalizing index with
  | nil => exact nodup k
  | cons key rest ih =>
      refine ih fun k' => ?_
      rw [idsAt_addId]
      split
      · exact nodup_addOnce (nodup key)
      · exact nodup k'

theorem nodup_idsAt_removeIds {id : ι} {keys : List κ} {index : OrderedMap κ (List ι)}
    (nodup : ∀ k, (index.idsAt k).Nodup) (k : κ) : ((index.removeIds id keys).idsAt k).Nodup := by
  induction keys generalizing index with
  | nil => exact nodup k
  | cons key rest ih =>
      refine ih fun k' => ?_
      rw [idsAt_removeId]
      split
      · exact (nodup key).filter _
      · exact nodup k'

/-- The index has exactly the ids that have the key, each once. -/
structure Lists (index : OrderedMap κ (List ι)) (has : ι → κ → Prop) : Prop where
  mem_iff : ∀ id k, id ∈ index.idsAt k ↔ has id k
  nodup : ∀ k, (index.idsAt k).Nodup

namespace Lists

variable {index : OrderedMap κ (List ι)} {has has' : ι → κ → Prop}

theorem empty : (OrderedMap.empty : OrderedMap κ (List ι)).Lists fun _ _ => False where
  mem_iff _ _ := by simp [idsAt]
  nodup _ := by simp [idsAt]

theorem congr (lists : index.Lists has) (same : ∀ id k, has id k ↔ has' id k) :
    index.Lists has' where
  mem_iff id k := (lists.mem_iff id k).trans (same id k)
  nodup := lists.nodup

theorem addIds (lists : index.Lists has) (id : ι) (keys : List κ) :
    (index.addIds id keys).Lists fun id' k => has id' k ∨ (id' = id ∧ k ∈ keys) where
  mem_iff id' k := by rw [mem_idsAt_addIds, lists.mem_iff]
  nodup := nodup_idsAt_addIds lists.nodup

theorem removeIds (lists : index.Lists has) (id : ι) (keys : List κ) :
    (index.removeIds id keys).Lists fun id' k => has id' k ∧ ¬ (id' = id ∧ k ∈ keys) where
  mem_iff id' k := by rw [mem_idsAt_removeIds, lists.mem_iff]
  nodup := nodup_idsAt_removeIds lists.nodup

end Lists

end OrderedMap

end EliteHubVault.Library
