import EliteHubVault.Library.Table

/-!
# Upserts that succeed

A statement fails when it changes a row twice or breaks a constraint. An upsert whose proposed
rows have distinct keys does not change a row twice, and it breaks no constraint when a
proposed row clashes only with the row that it updates.
-/

set_option autoImplicit false

namespace EliteHubVault.Library

variable {ρ κ : Type*} [DecidableEq κ] {key : ρ → κ} {set : ρ → ρ → ρ} {setWhere : ρ → ρ → Bool}

/-! ## No row is changed twice -/

variable (set setWhere) in
/-- A proposed row is accepted when no row that the statement wrote has its key. -/
theorem exists_upsertOne {proposed : ρ} {rows : List (ρ × Bool)}
    (untouched : ∀ entry ∈ rows, entry.2 = true → key entry.1 ≠ key proposed) :
    ∃ result, upsertOne key set setWhere proposed rows = some result := by
  induction rows with
  | nil => exact ⟨_, rfl⟩
  | cons head rest ih =>
      obtain ⟨row, touched⟩ := head
      obtain ⟨later, done⟩ := ih fun entry member => untouched entry (List.mem_cons_of_mem _ member)
      by_cases here : key row = key proposed
      · cases touched with
        | true => exact absurd here (untouched _ List.mem_cons_self rfl)
        | false =>
            cases changed : setWhere row proposed with
            | true =>
                exact ⟨_, by rw [upsertOne, if_pos here, if_neg Bool.false_ne_true,
                  if_pos changed]⟩
            | false =>
                exact ⟨_, by rw [upsertOne, if_pos here, if_neg Bool.false_ne_true, changed,
                  if_neg Bool.false_ne_true]⟩
      · exact ⟨_, by rw [upsertOne, if_neg here, done, Option.map_some]⟩

/-- The rows that a proposed row leaves: those from before and the one that it writes. -/
theorem mem_of_upsertOne {proposed : ρ} {rows rows' : List (ρ × Bool)} {changes : List (Change ρ)}
    (done : upsertOne key set setWhere proposed rows = some (rows', changes)) {entry : ρ × Bool}
    (member : entry ∈ rows') :
    entry ∈ rows ∨ (entry = (proposed, true) ∧ ∀ old ∈ rows, key old.1 ≠ key proposed) ∨
      ∃ row, (row, false) ∈ rows ∧ key row = key proposed ∧ entry = (set row proposed, true) := by
  induction rows generalizing rows' changes with
  | nil =>
      cases done
      exact .inr (.inl ⟨List.mem_singleton.mp member, nofun⟩)
  | cons head rest ih =>
      obtain ⟨row, touched⟩ := head
      simp only [upsertOne] at done
      split at done
      · rename_i here
        split at done
        · cases done
        · rename_i fresh
          obtain rfl : touched = false := by simpa using fresh
          split at done
          · cases done
            rcases List.mem_cons.mp member with rfl | old
            · exact .inr (.inr ⟨row, List.mem_cons_self, here, rfl⟩)
            · exact .inl (List.mem_cons_of_mem _ old)
          · cases done
            exact .inl member
      · rename_i away
        obtain ⟨⟨later, made⟩, deeper, same⟩ := Option.map_eq_some_iff.mp done
        cases same
        rcases List.mem_cons.mp member with rfl | inLater
        · exact .inl List.mem_cons_self
        · obtain old | ⟨new, unknown⟩ | ⟨row', inRest, same, written⟩ := ih deeper inLater
          · exact .inl (List.mem_cons_of_mem _ old)
          · refine .inr (.inl ⟨new, fun entry inRows => ?_⟩)
            rcases List.mem_cons.mp inRows with rfl | inRest
            · exact away
            · exact unknown entry inRest
          · exact .inr (.inr ⟨row', List.mem_cons_of_mem _ inRest, same, written⟩)

section Keys

variable (keyKept : ∀ row proposed, key row = key proposed →
  key (set row proposed) = key proposed)

include keyKept

/-- What a proposed row writes has its key. -/
theorem touched_of_upsertOne {proposed : ρ} {rows rows' : List (ρ × Bool)}
    {changes : List (Change ρ)}
    (done : upsertOne key set setWhere proposed rows = some (rows', changes)) {entry : ρ × Bool}
    (member : entry ∈ rows') : entry ∈ rows ∨ key entry.1 = key proposed := by
  obtain old | ⟨rfl, -⟩ | ⟨row, -, same, rfl⟩ := mem_of_upsertOne done member
  · exact .inl old
  · exact .inr rfl
  · exact .inr (keyKept row proposed same)

variable (setWhere) in
/-- Proposed rows with distinct keys are all accepted. -/
theorem exists_upsertAll {proposed : List ρ} (distinct : (proposed.map key).Nodup)
    {rows : List (ρ × Bool)}
    (untouched : ∀ wanted ∈ proposed, ∀ entry ∈ rows, entry.2 = true → key entry.1 ≠ key wanted) :
    ∃ result, upsertAll key set setWhere proposed rows = some result := by
  induction proposed generalizing rows with
  | nil => exact ⟨_, rfl⟩
  | cons first rest ih =>
      obtain ⟨new, others⟩ := List.nodup_cons.mp distinct
      obtain ⟨⟨middle, made⟩, one⟩ := exists_upsertOne set setWhere
        (untouched first List.mem_cons_self)
      have still : ∀ wanted ∈ rest, ∀ entry ∈ middle, entry.2 = true →
          key entry.1 ≠ key wanted := by
        intro wanted listed entry member wrote
        obtain old | sameKey := touched_of_upsertOne keyKept one member
        · exact untouched wanted (List.mem_cons_of_mem _ listed) entry old wrote
        · exact fun same => new (List.mem_map.mpr ⟨wanted, listed, same.symm.trans sameKey⟩)
      obtain ⟨later, all⟩ := ih others still
      exact ⟨_, by rw [upsertAll, one, Option.bind_some, all, Option.map_some]⟩

end Keys

/-! ## No constraint is broken -/

section Constraints

variable {clash : ρ → ρ → Prop} (symmetric : ∀ row row', clash row row' → clash row' row)
  (kept : ∀ row proposed other, key row = key proposed → clash (set row proposed) other →
    clash row other)

include symmetric kept

theorem pairwise_upsertOne {proposed : ρ} {rows rows' : List (ρ × Bool)}
    {changes : List (Change ρ)}
    (unique : (rows.map Prod.fst).Pairwise fun row row' => ¬ clash row row')
    (own : ∀ entry ∈ rows, clash entry.1 proposed → key entry.1 = key proposed)
    (done : upsertOne key set setWhere proposed rows = some (rows', changes)) :
    (rows'.map Prod.fst).Pairwise fun row row' => ¬ clash row row' := by
  induction rows generalizing rows' changes with
  | nil =>
      cases done
      exact List.pairwise_singleton _ _
  | cons head rest ih =>
      obtain ⟨row, touched⟩ := head
      obtain ⟨apart, distinct⟩ := List.pairwise_cons.mp unique
      simp only [upsertOne] at done
      split at done
      · rename_i here
        split at done
        · cases done
        · split at done
          · cases done
            exact List.pairwise_cons.mpr ⟨fun row' member clashing =>
              apart row' member (kept row proposed row' here clashing), distinct⟩
          · cases done
            exact unique
      · rename_i away
        obtain ⟨⟨later, made⟩, deeper, same⟩ := Option.map_eq_some_iff.mp done
        cases same
        refine List.pairwise_cons.mpr ⟨fun row' member clashing => ?_,
          ih distinct (fun entry inRest => own entry (List.mem_cons_of_mem _ inRest)) deeper⟩
        obtain ⟨entry, inLater, rfl⟩ := List.mem_map.mp member
        obtain old | ⟨rfl, -⟩ | ⟨before, inRest, sameKey, rfl⟩ := mem_of_upsertOne deeper inLater
        · exact apart _ (List.mem_map_of_mem old) clashing
        · exact away (own _ List.mem_cons_self clashing)
        · have earlier := kept before proposed row sameKey (symmetric _ _ clashing)
          exact apart _ (List.mem_map_of_mem inRest) (symmetric _ _ earlier)

variable (keyKept : ∀ row proposed, key row = key proposed →
  key (set row proposed) = key proposed)

include keyKept

theorem pairwise_upsertAll {proposed : List ρ} {rows rows' : List (ρ × Bool)}
    {changes : List (Change ρ)}
    (unique : (rows.map Prod.fst).Pairwise fun row row' => ¬ clash row row')
    (own : ∀ wanted ∈ proposed, ∀ entry ∈ rows, clash entry.1 wanted →
      key entry.1 = key wanted)
    (apart : proposed.Pairwise fun wanted wanted' => ¬ clash wanted wanted')
    (done : upsertAll key set setWhere proposed rows = some (rows', changes)) :
    (rows'.map Prod.fst).Pairwise fun row row' => ¬ clash row row' := by
  induction proposed generalizing rows changes with
  | nil =>
      cases done
      exact unique
  | cons first rest ih =>
      obtain ⟨⟨middle, made⟩, one, remaining⟩ := Option.bind_eq_some_iff.mp done
      obtain ⟨⟨last, later⟩, all, same⟩ := Option.map_eq_some_iff.mp remaining
      cases same
      obtain ⟨other, others⟩ := List.pairwise_cons.mp apart
      refine ih (pairwise_upsertOne symmetric kept unique (own first List.mem_cons_self) one)
        (fun wanted listed entry member clashing => ?_) others all
      have before := own wanted (List.mem_cons_of_mem _ listed)
      obtain old | ⟨rfl, -⟩ | ⟨row, inRows, sameKey, rfl⟩ := mem_of_upsertOne one member
      · exact before entry old clashing
      · exact absurd clashing (other wanted listed)
      · rw [keyKept row first sameKey, ← sameKey]
        exact before _ inRows (kept row first wanted sameKey clashing)

variable (key set setWhere) in
/-- **An upsert succeeds** when its proposed rows have distinct keys, clash with each other
not at all and with a stored row only under its key. -/
theorem exists_upsertRows {proposed rows : List ρ} (distinct : (proposed.map key).Nodup)
    (unique : rows.Pairwise fun row row' => ¬ clash row row')
    (own : ∀ wanted ∈ proposed, ∀ row ∈ rows, clash row wanted → key row = key wanted)
    (apart : proposed.Pairwise fun wanted wanted' => ¬ clash wanted wanted') :
    ∃ outcome, upsertRows key set setWhere proposed rows = some outcome ∧
      outcome.1.Pairwise fun row row' => ¬ clash row row' := by
  have untouched : ∀ wanted ∈ proposed, ∀ entry ∈ rows.map fun row => (row, false),
      entry.2 = true → key entry.1 ≠ key wanted := by
    intro wanted _ entry member wrote
    obtain ⟨row, -, rfl⟩ := List.mem_map.mp member
    cases wrote
  obtain ⟨⟨last, changes⟩, all⟩ := exists_upsertAll setWhere keyKept distinct untouched
  refine ⟨(last.map Prod.fst, changes), by rw [upsertRows, all, Option.map_some], ?_⟩
  refine pairwise_upsertAll symmetric kept keyKept ?_ (fun wanted listed entry member => ?_) apart all
  · rwa [map_fst_flag]
  · obtain ⟨row, inRows, rfl⟩ := List.mem_map.mp member
    exact own wanted listed row inRows

end Constraints

/-- Skipping what is there keeps the keys distinct. -/
theorem nodup_insertOrSkip (proposed : List ρ) {rows : List ρ} (distinct : (rows.map key).Nodup) :
    ((insertOrSkip key proposed rows).1.map key).Nodup := by
  induction proposed generalizing rows with
  | nil => exact distinct
  | cons first rest ih =>
      rw [insertOrSkip]
      split
      · exact ih distinct
      · rename_i new
        refine ih ?_
        rw [List.map_append, List.map_singleton]
        exact List.nodup_append.mpr ⟨distinct, List.nodup_singleton _, fun k known k' here same =>
          new (List.mem_singleton.mp here ▸ same ▸ known)⟩

end EliteHubVault.Library
