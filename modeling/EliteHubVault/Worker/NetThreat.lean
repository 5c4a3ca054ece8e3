import EliteHubVault.Worker.Phases
import EliteHubVault.Worker.Replay

/-!
# The net change of a threat

A message that describes a whole system should report the net change of the threat only:
no event when neither the flag nor the controlling faction changed, and no `entered` event
when the system is not threatened in the end. The transaction passes through two states in
between: the stale factions are gone but the influences are the old ones, under the old
controlling faction and then under the new one. `OnlyNetThreats` says on the inputs when
neither of them is seen.
-/

set_option autoImplicit false
set_option linter.unusedSectionVars false

namespace EliteHubVault

open Library

variable {K : Type} [Field K] [LinearOrder K] {P : Platform K} {env : TxEnv} {db db' : Db P}

/-! ## Threats by influence -/

/-- A faction with its influence. -/
def FactionStateRow.share (row : FactionStateRow K) : Uuid × K := (row.factionId, row.influence)

@[simp] theorem FactionStateRow.fst_share (row : FactionStateRow K) :
    row.share.1 = row.factionId := rfl

/-- The controlling faction leads the most influential other faction by at most the
threshold. -/
def ThreatenedAmong (controllingFactionId : Option Uuid) (shares : List (Uuid × K)) : Prop :=
  ∃ holder ∈ shares, controllingFactionId = some holder.1 ∧
    ∃ rival ∈ shares, rival.1 ≠ holder.1 ∧
      (∀ other ∈ shares, other.1 ≠ holder.1 → other.2 ≤ rival.2) ∧ holder.2 - rival.2 ≤ 1 / 10

theorem threatenedAmong_congr {controllingFactionId : Option Uuid} {shares shares' : List (Uuid × K)}
    (same : ∀ share, share ∈ shares ↔ share ∈ shares') :
    ThreatenedAmong controllingFactionId shares ↔ ThreatenedAmong controllingFactionId shares' := by
  simp only [ThreatenedAmong, same]

theorem RankedBefore.influence_le {row row' : FactionStateRow K} (before : RankedBefore row row') :
    row'.influence ≤ row.influence := by
  rcases before with more | ⟨same, -⟩
  · exact more.le
  · exact same.ge

/-- A threat depends on the influences only. -/
theorem threatened_iff_shares (controllingFactionId : Option Uuid)
    (states : List (FactionStateRow K)) : Threatened controllingFactionId states ↔
      ThreatenedAmong controllingFactionId (states.map FactionStateRow.share) := by
  constructor
  · rintro ⟨challenger, gap, ⟨holder, member, controls, rival, first, rfl, rfl⟩, close⟩
    obtain ⟨inStates, different⟩ := List.mem_filter.mp first.mem
    refine ⟨holder.share, List.mem_map_of_mem member, controls, rival.share,
      List.mem_map_of_mem inStates, by simpa using different, ?_, close⟩
    intro share inShares other
    obtain ⟨row, inStates', rfl⟩ := List.mem_map.mp inShares
    exact (first.before row (List.mem_filter.mpr ⟨inStates', by simpa using other⟩)).influence_le
  · rintro ⟨share, inShares, controls, share', inShares', different, greatest, close⟩
    obtain ⟨holder, member, rfl⟩ := List.mem_map.mp inShares
    obtain ⟨rival, inStates, rfl⟩ := List.mem_map.mp inShares'
    have listed : rival ∈ states.filter fun row => row.factionId ≠ holder.factionId :=
      List.mem_filter.mpr ⟨inStates, by simpa using different⟩
    cases head : ((states.filter fun row => row.factionId ≠ holder.factionId).insertionSort
        RankedBefore).head? with
    | none =>
        rw [head?_insertionSort_eq_none.mp head] at listed
        cases listed
    | some top =>
        have first := isFirst_of_head? head
        obtain ⟨inStates', other⟩ := List.mem_filter.mp first.mem
        have least := greatest top.share (List.mem_map_of_mem inStates') (by simpa using other)
        have most := (first.before rival listed).influence_le
        have same : top.influence = rival.influence := le_antisymm least most
        refine ⟨top.factionId, holder.influence - top.influence,
          ⟨holder, member, controls, top, first, rfl, rfl⟩, ?_⟩
        rw [same]
        exact close

/-! ## What a message says about control and influence -/

/-- The id and the name under which the upsert returns a faction of the message. -/
def listedAs (P : Platform K) (env : TxEnv) (rows : List FactionRow) (index : ℕ) (name : String) :
    Uuid × String :=
  (storedAs P rows name).getD (env.randomUuid .upsertFactions index, name)

/-- The factions of the message, as the upsert returns them. -/
def listedFactions (P : Platform K) (env : TxEnv) (message : SystemMessage K)
    (rows : List FactionRow) : List (Uuid × String) :=
  (message.factions.getD []).mapIdx fun index faction => listedAs P env rows index faction.name

/-- The influences that the message gives. -/
def messageShares (P : Platform K) (env : TxEnv) (message : SystemMessage K)
    (rows : List FactionRow) : List (Uuid × K) :=
  (message.factions.getD []).mapIdx fun index faction =>
    ((listedAs P env rows index faction.name).1, faction.influence)

/-- The controlling faction that the message leaves: the one that it names, if that is
listed under exactly this name. -/
def controllerAfter (message : SystemMessage K) (listed : List (Uuid × String))
    (controllingFactionId : Option Uuid) : Option Uuid :=
  match message.systemFaction.filter fun name => name ≠ "" with
  | none => controllingFactionId
  | some name =>
      ((listed.find? fun identity => identity.2 = name).map Prod.fst).or controllingFactionId

/-- The system of a message. -/
def systemIdOf (env : TxEnv) (message : SystemMessage K) (db : Db P) : Uuid :=
  ((db.systems.rows.find? fun row => row.systemAddress = message.systemAddress).map
    fun row => row.id).getD (env.randomUuid .upsertSystem 0)

/-- The stored influences of the factions that the message lists. -/
def keptShares (env : TxEnv) (message : SystemMessage K) (db : Db P) : List (Uuid × K) :=
  ((db.statesOf (systemIdOf env message db)).filter fun row =>
    row.factionId ∈ (listedFactions P env message db.factions.rows).map Prod.fst).map
      FactionStateRow.share

/-- No state in between is seen: with the same controlling faction and the same flag before
and after, the old influences of the listed factions give this flag too; and where the system
is not threatened in the end, neither these influences under the old controlling faction
nor under the new one raise the flag. -/
def OnlyNetThreats (env : TxEnv) (message : SystemMessage K) (db : Db P) : Prop :=
  message.factions.getD [] ≠ [] →
    let systemId := systemIdOf env message db
    let controller := db.controllingFactionOf systemId
    let controller' := controllerAfter message (listedFactions P env message db.factions.rows)
      controller
    let before := db.threatFlag systemId = true
    let cleaned := ThreatenedAmong controller (keptShares env message db)
    let synced := ThreatenedAmong controller' (keptShares env message db)
    let after := ThreatenedAmong controller' (messageShares P env message db.factions.rows)
    (controller = controller' → (before ↔ after) → (cleaned ↔ before)) ∧
      (¬ after → (cleaned → before) ∧ (synced → cleaned))

/-! ## The net change -/

/-- Only the net change of the threat to the system was reported. -/
structure ReportsNetThreat (systemId : Uuid) (before after : Db P) : Prop where
  unchanged : before.controllingFactionOf systemId = after.controllingFactionOf systemId →
    before.threatFlag systemId = after.threatFlag systemId →
    ∀ row ∈ insertedEvents before after, ¬ row.isThreatEventOf systemId
  calm : after.threatFlag systemId = false →
    ∀ row ∈ insertedEvents before after, ¬ row.reportsEntered

/-! ## The returned factions -/

theorem listed_upsertFactions {message : SystemMessage K} {factions : List FactionRow}
    (done : upsertFactions env .upsertFactions
      ((message.factions.getD []).map FactionElement.messageFaction) db = .ok (db', factions)) :
    factions.map FactionRow.identity = listedFactions P env message db.factions.rows := by
  unfold upsertFactions at done
  split at done
  · rename_i nobody
    cases pure_eq_ok.mp done
    simp only [List.map_eq_nil_iff] at nobody
    simp [listedFactions, nobody]
  · simp only [bind_eq_ok, orFail_eq_ok, pure_eq_ok] at done
    obtain ⟨proposed, parsed, ⟨rows, changes⟩, upserted, ⟨table, changes'⟩, write, same⟩ := done
    cases same
    obtain ⟨changed, -, -, -⟩ := upsertRows_always (fun _ _ => rfl)
      (fun wanted _ row (same : P.citext row.name = P.citext wanted.name) => same) upserted
    have byIdentity : (proposed.map (upsertedFaction P (env.newDate .upsertFactions)
        db.factions.rows)).map FactionRow.identity = (proposed.map FactionRow.identity).map
          fun identity => (storedAs P db.factions.rows identity.2).getD identity := by
      rw [List.map_map, List.map_map]
      exact List.map_congr_left fun row _ => identity_upsertedFaction _ _ row
    rw [changed, filterMap_new?_changeFor]
    refine byIdentity.trans ?_
    rw [map_identity_proposedFactions parsed, listedFactions]
    refine List.ext_getElem (by simp) fun index small small' => ?_
    simp [listedAs, FactionElement.messageFaction]

/-- The returned factions have different names. -/
theorem distinctNames_of_upsertFactions {statement : Statement}
    {messageFactions : List MessageFaction} {factions : List FactionRow}
    (done : upsertFactions env statement messageFactions db = .ok (db', factions)) :
    (factions.map FactionRow.name).Nodup := by
  unfold upsertFactions at done
  split at done
  · cases pure_eq_ok.mp done
    exact List.nodup_nil
  · simp only [bind_eq_ok, orFail_eq_ok, pure_eq_ok] at done
    obtain ⟨proposed, parsed, ⟨rows, changes⟩, upserted, ⟨table, changes'⟩, write, same⟩ := done
    cases same
    have keyKept : ∀ wanted ∈ proposed, ∀ row : FactionRow, P.citext row.name = P.citext wanted.name →
        P.citext (row.setExcluded (env.newDate statement) wanted).name = P.citext wanted.name :=
      fun _ _ _ same => same
    obtain ⟨changed, distinct, -, -⟩ := upsertRows_always (fun _ _ => rfl) keyKept upserted
    have keys : ((proposed.map (upsertedFaction P (env.newDate statement)
        db.factions.rows)).map FactionRow.name).map P.citext =
          proposed.map fun row => P.citext row.name := by
      rw [List.map_map, List.map_map]
      exact List.map_congr_left fun row member => key_rowFor (keyKept row member) _
    rw [changed, filterMap_new?_changeFor]
    exact (keys ▸ distinct).of_map _

/-- A stored faction is stored under its name. -/
theorem storedAs_of_mem {table : Table FactionRow (FactionRow.Clash P)} {row : FactionRow}
    (member : row ∈ table.rows) : storedAs P table.rows row.name = some row.identity := by
  have distinct : (table.rows.map fun row => P.citext row.name).Nodup :=
    List.pairwise_map.mpr (table.unique.imp fun apart same => apart (.inr same))
  have found := find?_key distinct member
  rw [storedAs, found, Option.map_some]

/-- A name that the map finds is the stored name. -/
theorem storedAs_of_lookupFactionId {factions : List FactionRow}
    {messageFactions : List MessageFaction} {name : String} {id : Uuid}
    (stored : (factions.map fun row => some row.identity) =
      messageFactions.map fun faction => storedAs P db.factions.rows faction.name)
    (found : lookupFactionId (createFactionIdMap factions) name = .value id) :
    storedAs P db.factions.rows name = some (id, name) := by
  obtain ⟨row, inFactions, identity⟩ := List.mem_map.mp (mem_of_lookupFactionId found)
  have listed : some row.identity ∈ messageFactions.map fun faction =>
      storedAs P db.factions.rows faction.name := stored ▸ List.mem_map_of_mem inFactions
  obtain ⟨faction, -, known⟩ := List.mem_map.mp listed
  obtain ⟨row', search, same⟩ := Option.map_eq_some_iff.mp known
  have here := storedAs_of_mem (List.mem_of_find?_eq_some search)
  rw [same, identity] at here
  have sameName : row'.name = name := congrArg Prod.snd (same.trans identity)
  rw [sameName] at here
  exact here

theorem get_foldl_set_of_mem {factions : List FactionRow} (acc : OrderedMap String Uuid)
    {name : String} (usual : name ≠ "__proto__")
    (known : name ∈ factions.map FactionRow.name ∨ (acc.get name).isSome) :
    ((factions.foldl (fun acc faction =>
      if faction.name = "__proto__" then acc else acc.set faction.name faction.id) acc).get
        name).isSome := by
  induction factions generalizing acc with
  | nil => simpa using known
  | cons faction rest ih =>
      rw [List.foldl_cons]
      apply ih
      rcases known with listed | before
      · rcases List.mem_cons.mp listed with rfl | later
        · right
          rw [if_neg usual, OrderedMap.get_set_self, Option.isSome_some]
        · exact .inl later
      · right
        split
        · exact before
        · rw [OrderedMap.get_set]
          split
          · rfl
          · exact before

/-! ## The controlling faction -/

/-- The controlling faction that syncing with a look-up leaves. -/
def syncedController (factionId : JsLookup Uuid) (controller : Option Uuid) : Option Uuid :=
  match factionId with
  | .value id => some id
  | _ => controller

/-- The controlling faction that the look-up leaves is the one that the message names. -/
theorem controllerAfter_eq {message : SystemMessage K} {factions : List FactionRow}
    (distinctNames : (factions.map FactionRow.name).Nodup) (controller : Option Uuid)
    (usual : controllingFactionIdOf message (createFactionIdMap factions) ≠ .inherited) :
    controllerAfter message (factions.map FactionRow.identity) controller =
      syncedController (controllingFactionIdOf message (createFactionIdMap factions))
        controller := by
  unfold controllerAfter controllingFactionIdOf at *
  cases named : message.systemFaction with
  | none => rfl
  | some name =>
      rw [named] at usual
      by_cases empty : name = ""
      · subst empty
        rfl
      · simp only [if_neg empty] at usual ⊢
        have kept : (some name).filter (fun name => name ≠ "") = some name := by
          simp [Option.filter, empty]
        rw [kept]
        cases found : lookupFactionId (createFactionIdMap factions) name with
        | value id =>
            obtain ⟨row, member, identity⟩ := List.mem_map.mp (mem_of_lookupFactionId found)
            have distinct : ((factions.map FactionRow.identity).map Prod.snd).Nodup := by
              rw [List.map_map]
              exact distinctNames
            have search := find?_key distinct (List.mem_map_of_mem member)
            rw [identity] at search
            simp only [search, Option.map_some, Option.some_or, syncedController]
        | null =>
            unfold lookupFactionId at found
            split at found
            · cases found
            · split at found <;> cases found
        | inherited => exact absurd found usual
        | undefined =>
            have absent : (factions.map FactionRow.identity).find?
                (fun identity => identity.2 = name) = none := by
              refine List.find?_eq_none.mpr fun identity member same => ?_
              obtain ⟨row, inFactions, rfl⟩ := List.mem_map.mp member
              have sameName : row.name = name := of_decide_eq_true same
              unfold lookupFactionId at found
              by_cases proto : name = "__proto__"
              · split at found
                · cases found
                · rw [if_pos (by rw [proto]; decide)] at found
                  cases found
              · have listed : name ∈ factions.map FactionRow.name :=
                  List.mem_map.mpr ⟨row, inFactions, sameName⟩
                have known := get_foldl_set_of_mem .empty proto (.inl listed)
                split at found
                · cases found
                · rename_i unknown
                  rw [createFactionIdMap] at unknown
                  rw [unknown] at known
                  cases known
            simp only [absent, Option.map_none, Option.none_or, syncedController]

theorem controllingFactionOf_sync {systemId : Uuid} {factionId : JsLookup Uuid}
    (present : ∃ system ∈ db.systems.rows, system.id = systemId)
    (done : syncSystemControllingFaction env systemId factionId db = .ok db') :
    factionId ≠ .inherited ∧ db'.controllingFactionOf systemId =
      syncedController factionId (db.controllingFactionOf systemId) := by
  cases factionId with
  | value id =>
      obtain ⟨system, member, rfl⟩ := present
      obtain ⟨rows, -⟩ := Db.of_writeSystems (orFail_eq_ok.mp done)
      have updated : system.setControl id (env.newDate .syncSystemControllingFaction) ∈
          db'.systems.rows := by
        rw [rows]
        refine List.mem_map.mpr ⟨system, member, ?_⟩
        rw [if_pos (decide_eq_true rfl)]
      refine ⟨nofun, ?_⟩
      rw [← SystemRow.id_setControl id (env.newDate .syncSystemControllingFaction) system,
        Db.controllingFactionOf_of_mem updated]
      rfl
  | inherited => exact absurd done throw_ne_ok
  | null =>
      obtain rfl := pure_eq_ok.mp done
      exact ⟨nofun, rfl⟩
  | undefined =>
      obtain rfl := pure_eq_ok.mp done
      exact ⟨nofun, rfl⟩

/-! ## The influences in between and in the end -/

/-- The cleanup leaves the states of the listed factions. -/
theorem statesOf_cleanup {systemId : Uuid} {factionIds : List Uuid}
    (done : cleanupFactionStates env systemId factionIds db = .ok db') :
    db'.statesOf systemId = (db.statesOf systemId).filter fun row => row.factionId ∈ factionIds := by
  obtain ⟨rows, -⟩ := Db.of_writeFactionStates (orFail_eq_ok.mp done)
  rw [Db.statesOf, Db.statesOf, rows, deleteRows, List.filter_filter, List.filter_filter]
  refine List.filter_congr fun row _ => ?_
  by_cases here : row.systemId = systemId <;> simp [here]

/-- A faction of the message is looked up under the id under which it is listed. -/
theorem listedAs_of_lookupFactionId {message : SystemMessage K} {rows : List FactionRow}
    {factions : List FactionRow}
    (stored : (factions.map fun row => some row.identity) =
      ((message.factions.getD []).map FactionElement.messageFaction).map
        fun faction => storedAs P db.factions.rows faction.name)
    (listed : factions.map FactionRow.identity = listedFactions P env message rows)
    {index : ℕ} {faction : FactionElement K} {id : Uuid}
    (here : (message.factions.getD [])[index]? = some faction)
    (found : lookupFactionId (createFactionIdMap factions) faction.name = .value id) :
    id = (listedAs P env rows index faction.name).1 := by
  have known := storedAs_of_lookupFactionId stored found
  have mapped : (listedFactions P env message rows).map some =
      ((message.factions.getD []).map FactionElement.messageFaction).map
        fun faction => storedAs P db.factions.rows faction.name := by
    rw [← listed, List.map_map]
    exact stored
  have position := congrArg (fun list => list[index]?) mapped
  simp only [listedFactions, List.getElem?_map, List.getElem?_mapIdx, here, Option.map_some,
    FactionElement.messageFaction, known, Option.some.injEq] at position
  rw [position]

/-- **In the end the influences are those of the message.** -/
theorem mem_shares_upsertFactionStates {message : SystemMessage K} {rows : List FactionRow}
    {factions : List FactionRow} {systemId : Uuid} {states : Db P}
    (stored : (factions.map fun row => some row.identity) =
      ((message.factions.getD []).map FactionElement.messageFaction).map
        fun faction => storedAs P db.factions.rows faction.name)
    (listed : factions.map FactionRow.identity = listedFactions P env message rows)
    (settled : StatesSettled P systemId (factions.map FactionRow.id) (message.factions.getD [])
      (createFactionIdMap factions) states.factionStates.rows)
    (done : upsertFactionStates env systemId (message.factions.getD [])
      (createFactionIdMap factions) db' = .ok states) (share : Uuid × K) :
    share ∈ (states.statesOf systemId).map FactionStateRow.share ↔
      share ∈ messageShares P env message rows := by
  simp only [upsertFactionStates, bind_eq_ok, orFail_eq_ok] at done
  obtain ⟨proposed, parsed, -⟩ := done
  -- The stored row of each faction of the message.
  have kept : ∀ (index : ℕ) (faction : FactionElement K),
      (message.factions.getD [])[index]? = some faction → ∃ row ∈ states.factionStates.rows,
        row.key = ((listedAs P env rows index faction.name).1, systemId) ∧
        row.influence = faction.influence := by
    intro index faction here
    obtain ⟨wanted, -, position, found⟩ :=
      (proposedStates_iff parsed).2 faction (List.mem_of_getElem? here)
    obtain ⟨lookup, system, influence⟩ := key_parseFactionStateInsert found
    obtain ⟨row, member, sameKey, same⟩ :=
      settled.listed env position faction wanted (List.mem_of_getElem? here) found
    refine ⟨row, member, ?_, ?_⟩
    · rw [sameKey, ← listedAs_of_lookupFactionId stored listed here lookup, FactionStateRow.key,
        system]
    · rw [← influence]
      simp only [FactionStateRow.differs, decide_eq_false_iff_not, not_or, not_not] at same
      exact same.2.1
  constructor
  · intro inStates
    obtain ⟨row, member, rfl⟩ := List.mem_map.mp inStates
    obtain ⟨inRows, here⟩ := List.mem_filter.mp member
    simp only [decide_eq_true_eq] at here
    have factionId := settled.only row inRows here
    have ids : factions.map FactionRow.id =
        (listedFactions P env message rows).map Prod.fst := by
      rw [← listed, List.map_map]
      rfl
    rw [ids] at factionId
    obtain ⟨identity, inListed, sameFaction⟩ := List.mem_map.mp factionId
    obtain ⟨index, small, rfl⟩ := List.mem_mapIdx.mp inListed
    obtain ⟨row', inRows', key, influence⟩ :=
      kept index _ (List.getElem?_eq_getElem small)
    obtain rfl : row = row' := List.inj_on_of_nodup_map (distinctFactionStates states) inRows
      inRows' (by rw [key, FactionStateRow.key, ← sameFaction, here])
    refine List.mem_mapIdx.mpr ⟨index, small, ?_⟩
    rw [FactionStateRow.share, influence, ← sameFaction]
  · intro inMessage
    obtain ⟨index, small, rfl⟩ := List.mem_mapIdx.mp inMessage
    obtain ⟨row, inRows, key, influence⟩ := kept index _ (List.getElem?_eq_getElem small)
    refine List.mem_map.mpr ⟨row, List.mem_filter.mpr ⟨inRows, ?_⟩, ?_⟩
    · exact decide_eq_true (congrArg Prod.snd key)
    · have sameFaction : row.factionId = _ := congrArg Prod.fst key
      rw [FactionStateRow.share, influence, sameFaction]

/-! ## The three phases -/

theorem isThreatened_iff_shares (db : Db P) (systemId : Uuid) : db.IsThreatened systemId ↔
    ThreatenedAmong (db.controllingFactionOf systemId)
      ((db.statesOf systemId).map FactionStateRow.share) :=
  threatened_iff_shares _ _

/-- **The factions of a message are processed in three phases**, with these flags. -/
theorem phases_processFactionsData {message : SystemMessage K} {systemId : Uuid}
    (somebody : message.factions.getD [] ≠ []) (current : db.ThreatsCurrent)
    (present : ∃ system ∈ db.systems.rows, system.id = systemId)
    (done : processFactionsData env message systemId db = .ok db') :
    ∃ cleaned synced : Db P,
      Phase systemId db cleaned ∧ Phase systemId cleaned synced ∧ Phase systemId synced db' ∧
      (cleaned.IsThreatened systemId ↔ ThreatenedAmong (db.controllingFactionOf systemId)
        (((db.statesOf systemId).filter fun row => row.factionId ∈
          (listedFactions P env message db.factions.rows).map Prod.fst).map
            FactionStateRow.share)) ∧
      (synced.IsThreatened systemId ↔ ThreatenedAmong
        (controllerAfter message (listedFactions P env message db.factions.rows)
          (db.controllingFactionOf systemId))
        (((db.statesOf systemId).filter fun row => row.factionId ∈
          (listedFactions P env message db.factions.rows).map Prod.fst).map
            FactionStateRow.share)) ∧
      (db'.IsThreatened systemId ↔ ThreatenedAmong
        (controllerAfter message (listedFactions P env message db.factions.rows)
          (db.controllingFactionOf systemId))
        (messageShares P env message db.factions.rows)) ∧
      db'.controllingFactionOf systemId =
        controllerAfter message (listedFactions P env message db.factions.rows)
          (db.controllingFactionOf systemId) := by
  obtain ⟨nobody, -⟩ | ⟨-, stored, factions, entered, cleaned, synced, states, upserted, presence,
    cleanup, sync, state, conflicts⟩ := of_processFactionsData done
  · exact absurd nobody somebody
  have listed := listed_upsertFactions upserted
  have ids : factions.map FactionRow.id =
      (listedFactions P env message db.factions.rows).map Prod.fst := by
    rw [← listed, List.map_map]
    rfl
  -- The cleanup.
  have silent := (silent_upsertFactions upserted).trans (silent_upsertSystemFactions presence)
  have first := phase_cleanupFactionStates (silent.threatsCurrent current) cleanup
  have cleanedSystems : cleaned.systems = db.systems := by
    rw [frame_cleanupFactionStates cleanup, frame_upsertSystemFactions presence,
      frame_upsertFactions upserted]
  have cleanedController : cleaned.controllingFactionOf systemId =
      db.controllingFactionOf systemId := by
    rw [Db.controllingFactionOf, Db.controllingFactionOf, cleanedSystems]
  have cleanedStates := statesOf_cleanup cleanup
  rw [ids, silent.statesOf] at cleanedStates
  -- The change of control.
  have second := phase_syncSystemControllingFaction first.current sync
  obtain ⟨usual, syncedController_⟩ := controllingFactionOf_sync (by
    rw [cleanedSystems]
    exact present) sync
  rw [cleanedController, ← controllerAfter_eq (distinctNames_of_upsertFactions upserted) _ usual,
    listed] at syncedController_
  have syncedStates : synced.statesOf systemId = cleaned.statesOf systemId := by
    rw [Db.statesOf, Db.statesOf, frame_syncSystemControllingFaction sync]
  -- The upsert of states.
  have third := (phase_upsertFactionStates second.current state).then_silent
    (silent_upsertFactionConflicts conflicts)
  have conflictsFrame := frame_upsertFactionConflicts conflicts
  have statesFrame := frame_upsertFactionStates state
  have lastController : db'.controllingFactionOf systemId =
      synced.controllingFactionOf systemId := by
    rw [Db.controllingFactionOf, Db.controllingFactionOf, conflictsFrame, statesFrame]
  have lastStates : db'.statesOf systemId = states.statesOf systemId := by
    rw [Db.statesOf, Db.statesOf, conflictsFrame]
  obtain ⟨distinctNames, distinctIds⟩ := distinct_of_upsertFactions upserted
  rw [List.map_map] at distinctNames
  have only : ∀ row ∈ synced.factionStates.rows, row.systemId = systemId →
      row.factionId ∈ factions.map FactionRow.id := by
    have left := states_cleanup cleanup
    rw [frame_syncSystemControllingFaction sync]
    exact left
  have settled := statesSettled_upsert distinctNames distinctIds only state
  have shares := mem_shares_upsertFactionStates (of_upsertFactions upserted).1 listed settled state
  refine ⟨cleaned, synced, first.after_silent silent, second, third, ?_, ?_, ?_, ?_⟩
  · rw [isThreatened_iff_shares, cleanedController, cleanedStates]
  · rw [isThreatened_iff_shares, syncedController_, syncedStates, cleanedStates]
  · rw [isThreatened_iff_shares, lastController, syncedController_, lastStates]
    exact threatenedAmong_congr shares
  · rw [lastController, syncedController_]

/-! ## Reachable databases -/

theorem threatsCurrent_processFactionsData {message : SystemMessage K} {systemId : Uuid}
    (current : db.ThreatsCurrent)
    (done : processFactionsData env message systemId db = .ok db') : db'.ThreatsCurrent := by
  obtain ⟨-, rfl⟩ | ⟨-, stored, factions, present, cleaned, synced, states, upserted, presence,
    cleanup, sync, state, conflicts⟩ := of_processFactionsData done
  · exact current
  have silent := (silent_upsertFactions upserted).trans (silent_upsertSystemFactions presence)
  have first := phase_cleanupFactionStates (silent.threatsCurrent current) cleanup
  have second := phase_syncSystemControllingFaction first.current sync
  have third := phase_upsertFactionStates second.current state
  exact (silent_upsertFactionConflicts conflicts).threatsCurrent third.current

/-- Every message keeps the threat table current. -/
theorem threatsCurrent_processMessage {message : JournalMessage K} (current : db.ThreatsCurrent)
    (done : processMessage env message db = .ok db') : db'.ThreatsCurrent := by
  cases processed_of_processMessage done with
  | full message done =>
      obtain ⟨-, rfl⟩ | ⟨-, afterSystem, system, afterPowers, afterFactions, upserted, powers,
        factions, station⟩ := of_processMessage done
      · exact current
      have silent := (silent_upsertSystem upserted).trans (silent_processPowerplayData powers)
      exact (onlyStationAndFaction_upsertStationOf station).silent.threatsCurrent
        (threatsCurrent_processFactionsData (silent.threatsCurrent current) factions)
  | docked message afterSystem system upserted station =>
      exact (onlyStationAndFaction_upsertStationFromDocked station).silent.threatsCurrent
        ((silent_upsertSystem upserted).threatsCurrent current)
  | unused message dropped same => rwa [same]

/-- The threat table is current in every database that the worker can leave. -/
theorem threatsCurrent_of_workerReachable (reachable : WorkerReachable db) :
    db.ThreatsCurrent :=
  reachable.of_processed (Db.threatsCurrent_of_started (.inr ⟨rfl, rfl⟩))
    fun _ _ _ _ current processed => threatsCurrent_processMessage current processed

/-! ## When only the net change is reported -/

theorem systemId_upsertSystem {message : SystemMessage K} {system : SystemRow K}
    (done : upsertSystem env (buildFullSystemData P message) db = .ok (db', system)) :
    system.id = systemIdOf env message db := by
  obtain ⟨validated, parsed, rfl, -, -, -⟩ := of_upsertSystem done
  have address : validated.systemAddress = message.systemAddress := (of_parseSystemInsert parsed).1
  have search : (validated.row env).systemAddress = message.systemAddress := address
  rw [SystemInsert.upserted, rowFor, systemIdOf, search]
  cases db.systems.rows.find? fun row => row.systemAddress = message.systemAddress <;> rfl

/-- Nothing is reported while nothing that threats depend on changes. -/
theorem Silent.reportsNetThreat (silent : Silent db db') (systemId : Uuid) :
    ReportsNetThreat systemId db db' := by
  obtain ⟨inserted, grown, other⟩ := silent.inserted
  obtain ⟨noEvents, noEntered⟩ := not_reportsEntered_of_silent systemId other
  have events : insertedEvents db db' = inserted := by
    rw [insertedEvents, grown, List.drop_left]
  exact ⟨fun _ _ => events ▸ noEvents, fun _ => events ▸ noEntered⟩

/-- Three phases in a row report the net change only when no state in between is seen. -/
theorem reportsNetThreat_of_phases {systemId : Uuid} {cleaned synced : Db P}
    (current : db.ThreatsCurrent) (first : Phase systemId db cleaned)
    (second : Phase systemId cleaned synced) (third : Phase systemId synced db')
    (sameController : db.controllingFactionOf systemId = db'.controllingFactionOf systemId →
      (cleaned.IsThreatened systemId ↔ synced.IsThreatened systemId)) :
    ReportsNetThreat systemId db db' ↔
      (db.controllingFactionOf systemId = db'.controllingFactionOf systemId →
        (db.IsThreatened systemId ↔ db'.IsThreatened systemId) →
        (cleaned.IsThreatened systemId ↔ db.IsThreatened systemId)) ∧
      (¬ db'.IsThreatened systemId → (cleaned.IsThreatened systemId → db.IsThreatened systemId) ∧
        (synced.IsThreatened systemId → cleaned.IsThreatened systemId)) := by
  obtain ⟨inserted, grown, events, entered⟩ := first.inserted
  obtain ⟨inserted', grown', events', entered'⟩ := second.inserted
  obtain ⟨inserted'', grown'', events'', entered''⟩ := third.inserted
  have all : insertedEvents db db' = inserted ++ inserted' ++ inserted'' := by
    rw [insertedEvents, grown'', grown', grown, List.append_assoc, List.append_assoc,
      List.drop_left, List.append_assoc]
  have flags : db.threatFlag systemId = db'.threatFlag systemId ↔
      (db.IsThreatened systemId ↔ db'.IsThreatened systemId) := by
    rw [Bool.eq_iff_iff, current.threatFlag_iff, third.current.threatFlag_iff]
  have calm : db'.threatFlag systemId = false ↔ ¬ db'.IsThreatened systemId := by
    rw [← third.current.threatFlag_iff, Bool.not_eq_true]
  have noEvents : (∀ row ∈ insertedEvents db db', ¬ row.isThreatEventOf systemId) ↔
      (db.IsThreatened systemId ↔ cleaned.IsThreatened systemId) ∧
      (cleaned.IsThreatened systemId ↔ synced.IsThreatened systemId) ∧
      (synced.IsThreatened systemId ↔ db'.IsThreatened systemId) := by
    rw [all, List.forall_mem_append, List.forall_mem_append, events, events', events'', and_assoc]
  have noEntered : (∀ row ∈ insertedEvents db db', ¬ row.reportsEntered) ↔
      (cleaned.IsThreatened systemId → db.IsThreatened systemId) ∧
      (synced.IsThreatened systemId → cleaned.IsThreatened systemId) ∧
      (db'.IsThreatened systemId → synced.IsThreatened systemId) := by
    rw [all, List.forall_mem_append, List.forall_mem_append, entered, entered', entered'',
      and_assoc]
  constructor
  · intro reports
    refine ⟨fun same flag => ?_, fun notThreatened => ?_⟩
    · exact (noEvents.mp (reports.unchanged same (flags.mpr flag))).1.symm
    · obtain ⟨raised, handed, -⟩ := noEntered.mp (reports.calm (calm.mpr notThreatened))
      exact ⟨raised, handed⟩
  · rintro ⟨unchanged, notRaised⟩
    refine ⟨fun same flag => ?_, fun notThreatened => ?_⟩
    · have net := flags.mp flag
      have middle := unchanged same net
      have handed := sameController same
      exact noEvents.mpr ⟨middle.symm, handed, handed.symm.trans (middle.trans net)⟩
    · obtain ⟨raised, handed⟩ := notRaised (calm.mp notThreatened)
      exact noEntered.mpr ⟨raised, handed, fun threatened => absurd threatened (calm.mp notThreatened)⟩

/-- **A message reports the net change of the threat exactly when no state in between is
seen**: for every reachable database and every message that is processed. -/
theorem reportsNetThreat_iff {message : FullSystemMessage K} (reachable : WorkerReachable db)
    (done : processMessage env message.toJournal db = .ok db') :
    ReportsNetThreat (systemIdOf env message.system db) db db' ↔
      OnlyNetThreats env message.system db := by
  have current := threatsCurrent_of_workerReachable reachable
  obtain ⟨dropped, rfl⟩ | ⟨-, afterSystem, system, afterPowers, afterFactions, upserted, powers,
    factions, station⟩ := of_processMessage done
  · have nobody : message.system.factions.getD [] = [] := by
      simp only [shouldUpsertSystem, Bool.or_eq_false_iff] at dropped
      simpa using dropped.1.2
    exact iff_of_true ((Silent.refl db').reportsNetThreat _) fun somebody => absurd nobody somebody
  have sameId := systemId_upsertSystem upserted
  have before := (silent_upsertSystem upserted).trans (silent_processPowerplayData powers)
  have later := (onlyStationAndFaction_upsertStationOf station).silent
  by_cases somebody : message.system.factions.getD [] = []
  · obtain ⟨-, rfl⟩ | ⟨listed, -⟩ := of_processFactionsData factions
    · exact iff_of_true ((before.trans later).reportsNetThreat _) fun listed =>
        absurd somebody listed
    · exact absurd somebody listed
  have present : ∃ row ∈ afterPowers.systems.rows, row.id = system.id := by
    obtain ⟨-, -, -, member, -⟩ := of_upsertSystem upserted
    rw [frame_processPowerplayData powers]
    exact ⟨system, member, rfl⟩
  have sameFactions : afterPowers.factions = db.factions := by
    rw [frame_processPowerplayData powers, frame_upsertSystem upserted]
  obtain ⟨cleaned, synced, first, second, third, cleanedFlag, syncedFlag, lastFlag, controls⟩ :=
    phases_processFactionsData somebody (before.threatsCurrent current) present factions
  rw [sameFactions, before.controller, before.statesOf, sameId] at cleanedFlag syncedFlag
  rw [sameFactions, before.controller, sameId] at lastFlag controls
  rw [sameId] at first second third
  have lastController := later.controller (systemIdOf env message.system db)
  rw [controls] at lastController
  rw [reportsNetThreat_of_phases current (first.after_silent before) second
    (third.then_silent later) ?_]
  · rw [lastController, later.isThreatened_iff, lastFlag, cleanedFlag, syncedFlag,
      ← current.threatFlag_iff]
    exact ⟨fun net _ => net, fun net => net somebody⟩
  · intro same
    rw [cleanedFlag, syncedFlag, ← lastController, ← same]

/-! ## Samples -/

/-- Faction B is close behind the controlling faction A. -/
def threatenedSample : FullSystemMessage ℚ :=
  .fsdJump (sampleMessage (some "A") [sampleFaction "A" (2 / 5), sampleFaction "B" (7 / 20)])

/-- Faction B has left the system, and faction C is close behind A. -/
def replacedSample : FullSystemMessage ℚ :=
  .fsdJump (sampleMessage (some "A") [sampleFaction "A" (2 / 5), sampleFaction "C" (7 / 20)])

/-- Faction B falls back. -/
def calmedSample : FullSystemMessage ℚ :=
  .fsdJump (sampleMessage (some "A") [sampleFaction "A" (2 / 5), sampleFaction "B" (1 / 10)])

/-- A message that ends the threat that the one before it has brought. -/
theorem reportsNetThreat_iff_sample :
    ∃ db db' : Db asciiPlatform,
      db.threatFlag (systemIdOf (sampleEnv 2) calmedSample.system db) = true ∧
      processMessage (sampleEnv 2) calmedSample.toJournal db = .ok db' ∧
      (ReportsNetThreat (systemIdOf (sampleEnv 2) calmedSample.system db) db db' ↔
        OnlyNetThreats (sampleEnv 2) calmedSample.system db) := by
  obtain ⟨db, reachable, seen⟩ := exists_reachable_of_execute workerStep
    (Db.empty : Db asciiPlatform) [(sampleEnv 1, threatenedSample.toJournal)]
    (fun db => db.threatFlag (systemIdOf (sampleEnv 2) calmedSample.system db) &&
      (processMessage (sampleEnv 2) calmedSample.toJournal db).toOption.isSome)
    (by decide +kernel)
  obtain ⟨threatened, succeeds⟩ := Bool.and_eq_true_iff.mp seen
  obtain ⟨db', done⟩ := Option.isSome_iff_exists.mp succeeds
  exact ⟨db, db', threatened, toOption_eq_some.mp done,
    reportsNetThreat_iff reachable (toOption_eq_some.mp done)⟩

/-- The challenger is replaced: A stays in control and threatened, but between the deletion
of B's state and the insertion of C's nobody challenges it, so the threat is reported as
over and as new. -/
theorem replaced_challenger_is_reported :
    ∃ db db' : Db asciiPlatform, WorkerReachable db ∧
      processMessage (sampleEnv 2) replacedSample.toJournal db = .ok db' ∧
      ¬ ReportsNetThreat (systemIdOf (sampleEnv 2) replacedSample.system db) db db' := by
  obtain ⟨db, reachable, seen⟩ := exists_reachable_of_execute workerStep
    (Db.empty : Db asciiPlatform) [(sampleEnv 1, threatenedSample.toJournal)]
    (fun db => (processMessage (sampleEnv 2) replacedSample.toJournal db).toOption.any fun db' =>
      let systemId := systemIdOf (sampleEnv 2) replacedSample.system db
      db.controllingFactionOf systemId = db'.controllingFactionOf systemId ∧
        db.threatFlag systemId = db'.threatFlag systemId ∧
        (insertedEvents db db').any fun row => row.isThreatEventOf systemId)
    (by decide +kernel)
  cases result : processMessage (sampleEnv 2) replacedSample.toJournal db with
  | error _ => simp [result, Except.toOption] at seen
  | ok db' =>
      simp only [result, Except.toOption, Option.any_some, decide_eq_true_eq, List.any_eq_true]
        at seen
      obtain ⟨controller, flag, row, member, about⟩ := seen
      exact ⟨db, db', reachable, result, fun net => net.unchanged controller flag row member about⟩

end EliteHubVault
