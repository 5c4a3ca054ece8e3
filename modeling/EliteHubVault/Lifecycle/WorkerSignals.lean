import EliteHubVault.Lifecycle.Signals
import EliteHubVault.Worker.Frames

/-!
# What a reader sees of the helpers

A reader that ignores what a helper's triggers emit sees nothing of the helper.
-/

set_option autoImplicit false
set_option linter.unusedSectionVars false

namespace EliteHubVault

open Library

variable {K ν : Type} {P : Platform K} {env : TxEnv} {db db' : Db P}
  {read : OutboxInsert K → Option ν}

/-- A reader that picks nothing from any change picks nothing from a list of them. -/
theorem filterMap_flatMap_eq_nil {ρ : Type} {emit : Change ρ → List (OutboxInsert K)}
    (unseen : ∀ change, (emit change).filterMap read = []) (changes : List (Change ρ)) :
    (changes.flatMap emit).filterMap read = [] := by
  induction changes with
  | nil => rfl
  | cons change rest ih => rw [List.flatMap_cons, List.filterMap_append, unseen, ih, List.append_nil]

theorem unseen_presence (presence : Ignores read "factionPresenceChanged")
    (change : Change SystemFactionRow) :
    (enqueueFactionPresenceChangedEvent change).filterMap read = [] :=
  presence.filterMap_eq_nil fun event member => by
    cases change with
    | insert new => exact congrArg OutboxInsert.eventType (List.mem_singleton.mp member)
    | update old new => cases member
    | delete old => exact congrArg OutboxInsert.eventType (List.mem_singleton.mp member)

variable [Field K] [LinearOrder K]

theorem signals_upsertSystemFactions {systemId : Uuid} {factionIds : List Uuid}
    (presence : Ignores read "factionPresenceChanged")
    (done : upsertSystemFactions env systemId factionIds db = .ok db') :
    db'.signals read = db.signals read := by
  obtain ⟨middle, inserted, deleted⟩ := bind_eq_ok.mp done
  rw [Db.signals_writeSystemFactions (orFail_eq_ok.mp deleted),
    Db.signals_writeSystemFactions (orFail_eq_ok.mp inserted),
    filterMap_flatMap_eq_nil (unseen_presence presence),
    filterMap_flatMap_eq_nil (unseen_presence presence), List.append_nil, List.append_nil]

theorem signals_upsertFactionConflicts {systemId : Uuid} {conflicts : List (Conflict K)}
    (unseen : ∀ change : Change (FactionConflictRow K),
      (enqueueFactionConflictChangedEvents change).filterMap read = [])
    (done : upsertFactionConflicts env systemId conflicts db = .ok db') :
    db'.signals read = db.signals read := by
  have statement : ∀ {db db' : Db P} {outcome}, db.writeFactionConflicts env.now outcome = some db' →
      db'.signals read = db.signals read := fun written => by
    rw [Db.signals_writeFactionConflicts written, filterMap_flatMap_eq_nil unseen, List.append_nil]
  unfold upsertFactionConflicts at done
  simp only at done
  split at done
  · exact statement (orFail_eq_ok.mp done)
  · simp only [bind_eq_ok, orFail_eq_ok] at done
    obtain ⟨proposed, -, outcome, -, middle, inserted, deleted⟩ := done
    exact (statement deleted).trans (statement inserted)

section Threats

variable (threats : Ignores read "factionControlThreatChanged")

include threats

section States

variable (unseen : ∀ change : Change (FactionStateRow K),
  (enqueueFactionStateChangedEvents change).filterMap read = [])

include unseen

theorem signals_cleanupFactionStates {systemId : Uuid} {factionIds : List Uuid}
    (done : cleanupFactionStates env systemId factionIds db = .ok db') :
    db'.signals read = db.signals read := by
  rw [Db.signals_writeFactionStates threats (orFail_eq_ok.mp done),
    filterMap_flatMap_eq_nil unseen, List.append_nil]

theorem signals_upsertFactionStates {systemId : Uuid} {factions : List (FactionElement K)}
    {factionIdMap : OrderedMap String Uuid}
    (done : upsertFactionStates env systemId factions factionIdMap db = .ok db') :
    db'.signals read = db.signals read := by
  simp only [upsertFactionStates, bind_eq_ok, orFail_eq_ok] at done
  obtain ⟨proposed, -, outcome, -, written⟩ := done
  rw [Db.signals_writeFactionStates threats written, filterMap_flatMap_eq_nil unseen,
    List.append_nil]

end States

variable (powerplay : Ignores read "systemPowerplayUpdated")

include powerplay

theorem signals_upsertSystem {data : SystemData K} {system : SystemRow K}
    (done : upsertSystem env data db = .ok (db', system)) :
    db'.signals read = db.signals read := by
  simp only [upsertSystem, bind_eq_ok, orFail_eq_ok, pure_eq_ok] at done
  obtain ⟨validated, -, outcome, -, after, written, returned, -, same⟩ := done
  cases same
  exact Db.signals_writeSystems threats powerplay written

theorem signals_syncSystemControllingFaction {systemId : Uuid} {factionId : JsLookup Uuid}
    (done : syncSystemControllingFaction env systemId factionId db = .ok db') :
    db'.signals read = db.signals read := by
  cases factionId with
  | value id => exact Db.signals_writeSystems threats powerplay (orFail_eq_ok.mp done)
  | inherited => exact absurd done throw_ne_ok
  | null =>
      obtain rfl := pure_eq_ok.mp done
      rfl
  | undefined =>
      obtain rfl := pure_eq_ok.mp done
      rfl

end Threats

end EliteHubVault
