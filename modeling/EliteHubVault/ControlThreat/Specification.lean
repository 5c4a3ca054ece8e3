import EliteHubVault.Library.Ranking
import EliteHubVault.Database.Triggers

/-!
# What a threat to the controlling faction is

The controlling faction of a system leads its first challenger by some gap
(`LeadsBy`): the challenger is the first faction other than the controlling one, by
influence, then by the freshness of its row, then by its id. The system is threatened
when the gap is at most the threshold (`Threatened`).

`Assesses` says of a row of the threat table that it states these facts. It determines
the four columns of the row (`Assesses.unique`), and the row a refresh computes satisfies
it (`assesses_controlThreatOf`).
-/

set_option autoImplicit false

namespace EliteHubVault

open Library

variable {K : Type} [LinearOrder K]

/-! ## The order of challengers -/

theorem RankedBefore.total (row row' : FactionStateRow K) :
    RankedBefore row row' ∨ RankedBefore row' row := by
  unfold RankedBefore
  rcases lt_trichotomy row.influence row'.influence with less | same | more
  · exact .inr (.inl less)
  · rcases lt_trichotomy row.updatedAt row'.updatedAt with less | same' | more
    · exact .inr (.inr ⟨same.symm, .inl less⟩)
    · rcases lt_trichotomy row.createdAt row'.createdAt with less | same'' | more
      · exact .inr (.inr ⟨same.symm, .inr ⟨same'.symm, .inl less⟩⟩)
      · rcases le_total row.factionId.bits row'.factionId.bits with first | first
        · exact .inl (.inr ⟨same, .inr ⟨same', .inr ⟨same'', first⟩⟩⟩)
        · exact .inr (.inr ⟨same.symm, .inr ⟨same'.symm, .inr ⟨same''.symm, first⟩⟩⟩)
      · exact .inl (.inr ⟨same, .inr ⟨same', .inl more⟩⟩)
    · exact .inl (.inr ⟨same, .inl more⟩)
  · exact .inl (.inl more)

theorem RankedBefore.trans {row row' row'' : FactionStateRow K} (first : RankedBefore row row')
    (second : RankedBefore row' row'') : RankedBefore row row'' := by
  unfold RankedBefore at *
  rcases first with more | ⟨same, first⟩
  · rcases second with more' | ⟨same', -⟩
    · exact .inl (more'.trans more)
    · exact .inl (same' ▸ more)
  · rcases second with more' | ⟨same', second⟩
    · exact .inl (same ▸ more')
    · exact .inr ⟨same.trans same', by grind⟩

instance : Std.Total (RankedBefore (K := K)) := ⟨RankedBefore.total⟩

instance : IsTrans (FactionStateRow K) RankedBefore := ⟨fun _ _ _ => RankedBefore.trans⟩

/-- Rows that rank equally are of one faction and have one influence. -/
theorem RankedBefore.antisymm {row row' : FactionStateRow K} (first : RankedBefore row row')
    (second : RankedBefore row' row) :
    row.factionId = row'.factionId ∧ row.influence = row'.influence := by
  unfold RankedBefore at *
  rcases first with more | ⟨same, first⟩
  · rcases second with more' | ⟨same', -⟩
    · exact absurd more' more.asymm
    · exact absurd more (by simp [same'])
  · rcases second with more' | ⟨-, second⟩
    · exact absurd more' (by simp [same])
    · refine ⟨?_, same⟩
      have bits : row.factionId.bits = row'.factionId.bits := by grind
      exact congrArg Uuid.mk bits

variable [Field K]

/-! ## Lead and threat -/

/-- The controlling faction leads its first challenger, which is `challenger`, by `gap`. -/
def LeadsBy (controllingFactionId : Option Uuid) (states : List (FactionStateRow K))
    (challenger : Uuid) (gap : K) : Prop :=
  ∃ holder ∈ states, controllingFactionId = some holder.factionId ∧
    ∃ rival, IsFirst RankedBefore (states.filter fun row => row.factionId ≠ holder.factionId) rival ∧
      challenger = rival.factionId ∧ gap = holder.influence - rival.influence

/-- The controlling faction leads its first challenger by at most the threshold. -/
def Threatened (controllingFactionId : Option Uuid) (states : List (FactionStateRow K)) : Prop :=
  ∃ challenger gap, LeadsBy controllingFactionId states challenger gap ∧ gap ≤ 1 / 10

/-- The row states who controls the system, who challenges the controlling faction, by how
much it leads and whether it is threatened. -/
structure Assesses (controllingFactionId : Option Uuid) (states : List (FactionStateRow K))
    (row : ControlThreatRow K) : Prop where
  factionId : row.factionId = controllingFactionId
  challenger : ∀ faction, row.challengerFactionId = some faction ↔
    ∃ gap, LeadsBy controllingFactionId states faction gap
  gap : ∀ gap, row.gap = some gap ↔
    ∃ challenger, LeadsBy controllingFactionId states challenger gap
  isThreatened : row.isThreatened = true ↔ Threatened controllingFactionId states

/-- A threatened system has a controlling faction. -/
theorem Threatened.controlled {controllingFactionId : Option Uuid}
    {states : List (FactionStateRow K)} (threatened : Threatened controllingFactionId states) :
    ∃ faction, controllingFactionId = some faction := by
  obtain ⟨-, -, ⟨holder, -, controls, -⟩, -⟩ := threatened
  exact ⟨holder.factionId, controls⟩

/-- Two rows that assess the same states agree on the four columns. -/
theorem Assesses.unique {controllingFactionId : Option Uuid} {states : List (FactionStateRow K)}
    {row row' : ControlThreatRow K} (first : Assesses controllingFactionId states row)
    (second : Assesses controllingFactionId states row') :
    row.factionId = row'.factionId ∧ row.challengerFactionId = row'.challengerFactionId ∧
      row.gap = row'.gap ∧ row.isThreatened = row'.isThreatened := by
  refine ⟨first.factionId.trans second.factionId.symm, ?_, ?_, ?_⟩
  · exact Option.ext fun faction => (first.challenger faction).trans (second.challenger faction).symm
  · exact Option.ext fun gap => (first.gap gap).trans (second.gap gap).symm
  · exact Bool.eq_iff_iff.mpr (first.isThreatened.trans second.isThreatened.symm)

/-! ## What a refresh computes -/

/-- With one row for each faction, the lead is determined by the row of the controlling
faction and by a first challenger. -/
theorem leadsBy_iff {states : List (FactionStateRow K)}
    (distinctFactions : (states.map fun row => row.factionId).Nodup)
    {holder rival : FactionStateRow K} (member : holder ∈ states)
    (first : IsFirst RankedBefore (states.filter fun row => row.factionId ≠ holder.factionId) rival)
    {challenger : Uuid} {gap : K} :
    LeadsBy (some holder.factionId) states challenger gap ↔
      challenger = rival.factionId ∧ gap = holder.influence - rival.influence := by
  constructor
  · rintro ⟨holder', member', controls, rival', first', rfl, rfl⟩
    obtain rfl : holder = holder' :=
      List.inj_on_of_nodup_map distinctFactions member member' (Option.some.inj controls)
    obtain ⟨before, after⟩ := first'.mutual first
    obtain ⟨faction, influence⟩ := before.antisymm after
    exact ⟨faction, by rw [influence]⟩
  · rintro ⟨rfl, rfl⟩
    exact ⟨holder, member, rfl, rival, first, rfl, rfl⟩

/-- Without a controlling faction nobody leads. -/
theorem not_leadsBy_none {states : List (FactionStateRow K)} {challenger : Uuid} {gap : K} :
    ¬ LeadsBy none states challenger gap := by
  rintro ⟨holder, -, controls, -⟩
  cases controls

/-- A controlling faction without a row does not lead. -/
theorem not_leadsBy_of_absent {states : List (FactionStateRow K)} {controller : Uuid}
    (absent : ∀ row ∈ states, row.factionId ≠ controller) {challenger : Uuid} {gap : K} :
    ¬ LeadsBy (some controller) states challenger gap := by
  rintro ⟨holder, member, controls, -⟩
  exact absent holder member (Option.some.inj controls).symm

/-- A controlling faction without challengers does not lead. -/
theorem not_leadsBy_of_alone {states : List (FactionStateRow K)} {controller : Uuid}
    (alone : states.filter (fun row => row.factionId ≠ controller) = []) {challenger : Uuid}
    {gap : K} : ¬ LeadsBy (some controller) states challenger gap := by
  rintro ⟨holder, -, controls, rival, first, -⟩
  cases controls
  have member := first.mem
  rw [alone] at member
  exact List.not_mem_nil member

/-- A row without challenger and gap assesses a system in which nobody leads. -/
theorem assesses_of_not_leadsBy {controllingFactionId : Option Uuid}
    {states : List (FactionStateRow K)}
    (noLead : ∀ challenger gap, ¬ LeadsBy controllingFactionId states challenger gap)
    (now : Timestamp) : Assesses controllingFactionId states
      ⟨controllingFactionId, none, none, false, now⟩ where
  factionId := rfl
  challenger faction := by simp [noLead]
  gap gap := by simp [noLead]
  isThreatened := by simp [Threatened, noLead]

/-- **The row that a refresh computes assesses the states it was computed from.** -/
theorem assesses_controlThreatOf {states : List (FactionStateRow K)}
    (distinctFactions : (states.map fun row => row.factionId).Nodup) (now : Timestamp)
    (controllingFactionId : Option Uuid) :
    Assesses controllingFactionId states (controlThreatOf now controllingFactionId states) := by
  cases controllingFactionId with
  | none => exact assesses_of_not_leadsBy (fun _ _ => not_leadsBy_none) now
  | some controller =>
      cases found : states.find? fun row => row.factionId = controller with
      | none =>
          have absent : ∀ row ∈ states, row.factionId ≠ controller := by
            simpa using List.find?_eq_none.mp found
          have computed : controlThreatOf now (some controller) states =
              ⟨some controller, none, none, false, now⟩ := by
            simp [controlThreatOf, found]
          rw [computed]
          exact assesses_of_not_leadsBy (fun _ _ => not_leadsBy_of_absent absent) now
      | some holder =>
          have member := List.mem_of_find?_eq_some found
          obtain rfl : holder.factionId = controller := by simpa using List.find?_some found
          cases head : ((states.filter fun row => row.factionId ≠ holder.factionId).insertionSort
              RankedBefore).head? with
          | none =>
              have computed : controlThreatOf now (some holder.factionId) states =
                  ⟨some holder.factionId, none, none, false, now⟩ := by
                simp only [controlThreatOf, Option.bind_some, found, Option.map_some, head]
                rfl
              rw [computed]
              exact assesses_of_not_leadsBy
                (fun _ _ => not_leadsBy_of_alone (head?_insertionSort_eq_none.mp head)) now
          | some rival =>
              have leads : ∀ challenger gap, LeadsBy (some holder.factionId) states challenger gap ↔
                  challenger = rival.factionId ∧ gap = holder.influence - rival.influence :=
                fun _ _ => leadsBy_iff distinctFactions member (isFirst_of_head? head)
              have computed : controlThreatOf now (some holder.factionId) states =
                  ⟨some holder.factionId, some rival.factionId,
                    some (holder.influence - rival.influence),
                    holder.influence - rival.influence ≤ controlThreatThreshold, now⟩ := by
                simp only [controlThreatOf, Option.bind_some, found, Option.map_some, head]
                rfl
              rw [computed]
              exact
                { factionId := rfl
                  challenger := fun faction => by simp [leads, eq_comm]
                  gap := fun gap => by simp [leads, eq_comm]
                  isThreatened := by simp [Threatened, leads, controlThreatThreshold] }

end EliteHubVault
