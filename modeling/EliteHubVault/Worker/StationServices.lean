import EliteHubVault.Worker.StrongholdCarriers

/-!
# The two columns of a station's services

`services` keeps every name that a message gives, `servicesV2` those of the enumeration. Rows
from before the second column was added have it empty. `prepareStationWritePayload` runs twice:
on the services of the message before the row is known, and on its own result with the row.
The second run changes nothing because a normalised name is normalised again to itself
(`normalizeServiceValues_idem`), and for a message without services it fills an empty
`servicesV2` from the services of the row. So the columns agree in every row that the worker
writes and in every row that it can leave (`upsertStation_keeps_servicesV2`).
-/

set_option autoImplicit false
set_option linter.unusedSectionVars false

namespace EliteHubVault

open Library

variable {K : Type} {P : Platform K}

/-! ## Names of services -/

/-- What JavaScript promises of lower-casing and trimming: both are idempotent, and
lower-casing neither makes nor removes white space. -/
structure Platform.NormalizesText (P : Platform K) : Prop where
  lower_lower : ∀ text, P.toLowerCase (P.toLowerCase text) = P.toLowerCase text
  trim_trim : ∀ text, P.trim (P.trim text) = P.trim text
  trim_lower : ∀ text, P.trim (P.toLowerCase text) = P.toLowerCase (P.trim text)

/-- The trimmed, lower-cased text of an element, unless it is empty or no string. -/
def serviceName (P : Platform K) (service : Json K) : Option String :=
  (service.asString?.map fun text => P.toLowerCase (P.trim text)).filter fun text => text ≠ ""

/-- The supported service of this name. -/
def supportedService (name : String) : Option StationService :=
  if supported : name ∈ stationServiceValues then some ⟨name, supported⟩ else none

/-- The supported services, in order, that a list of JSON values names. -/
def servicesNamed (P : Platform K) (services : List (Json K)) : List StationService :=
  services.filterMap fun service => (serviceName P service).bind supportedService

theorem normalizeServiceValues_eq (services : List (Json K)) :
    normalizeServiceValues P services = services.filterMap (serviceName P) := by
  rw [normalizeServiceValues, List.filterMap_eq_flatMap_toList]
  refine congrArg (services.flatMap ·) (funext fun service => ?_)
  cases service with
  | string text =>
      by_cases empty : P.toLowerCase (P.trim text) = "" <;>
        simp [serviceName, Json.asString?, Option.filter, empty]
  | _ => rfl

theorem supportedServices_normalizeServiceValues (services : List (Json K)) :
    supportedServices (normalizeServiceValues P services) = servicesNamed P services := by
  rw [normalizeServiceValues_eq, supportedServices, List.filterMap_filterMap]
  rfl

/-- A normalised name is a normal form. -/
theorem serviceName_string (normal : P.NormalizesText) {service : Json K} {name : String}
    (named : serviceName P service = some name) : serviceName P (.string name) = some name := by
  obtain ⟨mapped, present⟩ := Option.filter_eq_some_iff.mp named
  obtain ⟨text, -, rfl⟩ := Option.map_eq_some_iff.mp mapped
  have again : P.toLowerCase (P.trim (P.toLowerCase (P.trim text))) =
      P.toLowerCase (P.trim text) := by
    rw [normal.trim_lower, normal.trim_trim, normal.lower_lower]
  refine Option.filter_eq_some_iff.mpr ⟨?_, present⟩
  exact congrArg some again

theorem normalizeServiceValues_idem (normal : P.NormalizesText) (services : List (Json K)) :
    normalizeServiceValues P ((normalizeServiceValues P services).map .string) =
      normalizeServiceValues P services := by
  simp only [normalizeServiceValues_eq, List.filterMap_map, Function.comp_def]
  refine (List.filterMap_congr fun name member => ?_).trans List.filterMap_some
  obtain ⟨service, -, named⟩ := List.mem_filterMap.mp member
  exact serviceName_string normal named

theorem servicesNamed_normalizeServiceValues (normal : P.NormalizesText)
    (services : List (Json K)) :
    servicesNamed P ((normalizeServiceValues P services).map .string) =
      servicesNamed P services := by
  rw [← supportedServices_normalizeServiceValues, normalizeServiceValues_idem normal,
    supportedServices_normalizeServiceValues]

/-! ## The names on ASCII texts -/

theorem isWhitespace_of_isAlpha {letter : Char} (alpha : letter.isAlpha = true) :
    letter.isWhitespace = false := by
  rw [Bool.eq_false_iff]
  intro white
  simp only [Char.isWhitespace, Bool.or_eq_true, decide_eq_true_eq] at white
  obtain ((rfl | rfl) | rfl) | rfl := white <;> cases alpha

theorem isWhitespace_toLower (letter : Char) :
    letter.toLower.isWhitespace = letter.isWhitespace := by
  by_cases alpha : letter.isAlpha = true
  · rw [isWhitespace_of_isAlpha alpha, isWhitespace_of_isAlpha (by simpa using alpha)]
  · have kept : letter.toLower = letter :=
      Char.toLower_eq_of_not_isUpper fun upper => alpha (by simp [Char.isAlpha, upper])
    rw [kept]

/-- Trimming both ends leaves nothing to trim in front. -/
theorem dropWhile_rdropWhile_dropWhile (drop : Char → Bool) (letters : List Char) :
    ((letters.dropWhile drop).rdropWhile drop).dropWhile drop =
      (letters.dropWhile drop).rdropWhile drop := by
  refine List.dropWhile_eq_self_iff.mpr fun nonempty => ?_
  have front := List.rdropWhile_prefix drop (letters.dropWhile drop)
  have longer : 0 < (letters.dropWhile drop).length := nonempty.trans_le front.length_le
  rw [front.getElem nonempty]
  exact List.dropWhile_get_zero_not drop letters longer

theorem asciiTrim_eq (text : String) : asciiTrim text =
    String.ofList ((text.toList.dropWhile Char.isWhitespace).rdropWhile Char.isWhitespace) := rfl

theorem normalizesText_asciiPlatform : asciiPlatform.NormalizesText where
  lower_lower text := by simp [asciiPlatform, asciiLower, Function.comp_def]
  trim_trim text := by
    simp only [asciiPlatform, asciiTrim_eq, String.toList_ofList,
      dropWhile_rdropWhile_dropWhile, List.rdropWhile_idempotent]
  trim_lower text := by
    have white : (Char.isWhitespace ∘ Char.toLower) = Char.isWhitespace :=
      funext isWhitespace_toLower
    simp only [asciiPlatform, asciiTrim, asciiLower, String.toList_ofList,
      List.dropWhile_map, ← List.map_reverse, white]

/-! ## What a write leaves of the columns -/

/-- The services of a message, normalised. -/
def normalizedServices (P : Platform K) (services : List String) : List String :=
  normalizeServiceValues P (services.map (Json.string : String → Json K))

/-- `servicesV2` holds the supported services that `services` names. -/
def StationRow.ServicesAgree (P : Platform K) (row : StationRow K) : Prop :=
  row.servicesV2 = servicesNamed P row.services

/-- The columns of a row that is written for a message with the incoming services, in place of
the row found. -/
structure FollowsServices (P : Platform K) (incoming : Option (List String))
    (found : Option (StationRow K)) (row : StationRow K) : Prop where
  present : ∀ services, incoming = some services →
    row.services = (normalizedServices P services).map .string
  absent : incoming = none → row.services = found.elim [] StationRow.services
  agree : (∀ before ∈ found, before.ServicesAgree P ∨ before.servicesV2 = []) →
    row.ServicesAgree P

/-- Without a row the payload is that of the message alone. -/
theorem prepareStationWritePayload_nil (incoming : Option (List String)) :
    prepareStationWritePayload P incoming [] [] = normalizeStationServices P incoming := by
  cases incoming <;> rfl

/-- The payload is prepared a second time over its own result. -/
theorem normalizeStationServices_idem (normal : P.NormalizesText)
    (incoming : Option (List String)) :
    normalizeStationServices P (normalizeStationServices P incoming).services =
      normalizeStationServices P incoming := by
  cases incoming with
  | none => rfl
  | some services =>
      simp only [normalizeStationServices, normalizeServiceValues_idem normal]

/-- The columns of a merged row follow the services of the message. -/
theorem followsServices_merged [Field K] [LinearOrder K] (normal : P.NormalizesText)
    {incoming : Option (List String)} {data : StationInsert K} (env : TxEnv)
    (updatedAt : Timestamp) (found : Option (StationRow K))
    (services : data.services = (normalizeStationServices P incoming).services)
    (servicesV2 : data.servicesV2 = (normalizeStationServices P incoming).servicesV2) :
    FollowsServices P incoming found (data.merged P env updatedAt found) := by
  cases incoming with
  | none =>
      cases found with
      | none =>
          refine ⟨fun _ given => ?_, fun _ => ?_, fun _ => ?_⟩
          · cases given
          · simp [StationInsert.merged, StationInsert.row, services, normalizeStationServices]
          · simp [StationInsert.merged, StationInsert.row, services, servicesV2,
              normalizeStationServices, StationRow.ServicesAgree, servicesNamed]
      | some before =>
          have kept : (data.onto P before).services = none := by
            simp only [StationInsert.onto, services, prepareStationWritePayload,
              normalizeStationServices, buildStationWritePayload]
            split <;> rfl
          refine ⟨fun _ given => ?_, fun _ => ?_, fun agree => ?_⟩
          · cases given
          · simp [StationInsert.merged, StationInsert.set, kept]
          · -- an empty column is filled from the row's own services, any other is kept
            have columns : (data.onto P before).servicesV2.getD before.servicesV2 =
                servicesNamed P before.services := by
              simp only [StationInsert.onto, services, prepareStationWritePayload,
                normalizeStationServices, buildStationWritePayload]
              split
              · exact supportedServices_normalizeServiceValues before.services
              · rename_i filled
                obtain agrees | empty := agree before rfl
                · exact agrees
                · rw [empty] at filled ⊢
                  have none : before.services = [] := by simpa using filled
                  rw [none]
                  rfl
            simp only [StationInsert.merged, StationInsert.set, StationRow.ServicesAgree, kept,
              columns, Option.map_none, Option.getD_none]
  | some given =>
      have follows : ∀ row : StationRow K,
          row.services = (normalizedServices P given).map .string →
          row.servicesV2 = servicesNamed P (given.map .string) →
            FollowsServices P (some given) found row := by
        intro row columns columnsV2
        refine ⟨fun _ same => Option.some.inj same ▸ columns, fun absent => ?_, fun _ => ?_⟩
        · cases absent
        · rw [StationRow.ServicesAgree, columns, columnsV2, normalizedServices,
            servicesNamed_normalizeServiceValues normal]
      have named := supportedServices_normalizeServiceValues (P := P)
        (given.map (Json.string : String → Json K))
      cases found with
      | none =>
          have columns : (data.merged P env updatedAt none).services =
              (normalizedServices P given).map .string := by
            simp [StationInsert.merged, StationInsert.row, services, normalizeStationServices,
              normalizedServices]
          have columnsV2 : (data.merged P env updatedAt none).servicesV2 =
              servicesNamed P (given.map .string) := by
            simp [StationInsert.merged, StationInsert.row, servicesV2, normalizeStationServices,
              named]
          exact follows _ columns columnsV2
      | some before =>
          have again := normalizeStationServices_idem normal (some given)
          have columns : (data.merged P env updatedAt (some before)).services =
              (normalizedServices P given).map .string := by
            simp only [StationInsert.merged, StationInsert.set, StationInsert.onto,
              prepareStationWritePayload, services, again]
            rfl
          have columnsV2 : (data.merged P env updatedAt (some before)).servicesV2 =
              servicesNamed P (given.map .string) := by
            simp only [StationInsert.merged, StationInsert.set, StationInsert.onto,
              prepareStationWritePayload, services, again]
            exact named
          exact follows _ columns columnsV2

/-! ## The upsert of a station -/

section Upsert

variable [Field K] [LinearOrder K] {env : TxEnv} {db db' : Db P}

theorem services_of_parseStationInsert {data : StationData K} {payload : StationWritePayload}
    {validated : StationInsert K} (parsed : parseStationInsert P data payload = some validated) :
    validated.services = payload.services ∧ validated.servicesV2 = payload.servicesV2 := by
  simp only [parseStationInsert, Option.bind_eq_bind, Option.bind_eq_some_iff, Option.pure_def,
    Option.some.injEq] at parsed
  obtain ⟨_, -, _, -, _, -, _, -, _, -, _, -, _, -, _, -, _, -, rfl⟩ := parsed
  exact ⟨rfl, rfl⟩

/-- The station of a message, as the schema and the renaming of carriers leave it. -/
structure Normalized (P : Platform K) (data : StationData K) (insert : StationInsert K) : Prop where
  marketId : insert.marketId = data.marketId
  systemId : insert.systemId = data.systemId
  services : insert.services = (normalizeStationServices P data.services).services
  servicesV2 : insert.servicesV2 = (normalizeStationServices P data.services).servicesV2

theorem normalized_of_parseStationInsert {data : StationData K} {validated : StationInsert K}
    (parsed : parseStationInsert P data (prepareStationWritePayload P data.services [] []) =
      some validated) : Normalized P data (normalizeStrongholdCarrierName validated) := by
  obtain ⟨-, market, system, -⟩ := of_parseStationInsert parsed
  obtain ⟨services, servicesV2⟩ := services_of_parseStationInsert parsed
  rw [prepareStationWritePayload_nil] at services servicesV2
  unfold normalizeStrongholdCarrierName
  split <;> exact ⟨market, system, services, servicesV2⟩

/-- What the upsert of a station leaves: the written row, inserted under the drawn id or merged
onto a row that was there, and otherwise rows that were there. -/
structure UpsertsServices (env : TxEnv) (data : StationData K) (db db' : Db P)
    (found : Option (StationRow K)) (station : StationRow K) : Prop where
  inserted : found = none → station.id = env.randomUuid .upsertStation 0
  merged : ∀ before ∈ found, before ∈ db.stations.rows ∧ before.id = station.id
  member : station ∈ db'.stations.rows
  systemId : station.systemId = data.systemId
  marketId : station.marketId = some data.marketId
  others : ∀ row ∈ db'.stations.rows, row ∈ db.stations.rows ∨ row = station
  services : FollowsServices P data.services found station

theorem Db.WritesStation.upsertsServices (normal : P.NormalizesText) {data : StationData K}
    {insert : StationInsert K} (normalized : Normalized P data insert) {updatedAt : Timestamp}
    {found : Option (StationRow K)} (writes : Db.WritesStation insert env updatedAt found db db') :
    UpsertsServices env data db db' found (insert.merged P env updatedAt found) where
  inserted := by
    rintro rfl
    rfl
  merged := by
    rintro before rfl
    exact ⟨writes.old before rfl, rfl⟩
  member := writes.member
  systemId := (insert.systemId_merged updatedAt found).trans normalized.systemId
  marketId := by
    rw [← normalized.marketId]
    cases found <;> rfl
  others := writes.others
  services := followsServices_merged normal env updatedAt found normalized.services
    normalized.servicesV2

theorem writesStation_upsertRegularStation {data : StationInsert K} {updatedAt : Timestamp}
    (done : upsertRegularStation env data updatedAt db = .ok db') :
    Db.WritesStation data env updatedAt (db.mergedOnto data) db db' := by
  obtain ⟨-, merges⟩ := of_upsertRegularStation done
  refine ⟨fun row found => ?_, merges.member, fun row member => ?_⟩
  · obtain byName | ⟨-, byMarket⟩ := Option.or_eq_some_iff.mp found
    · exact (of_findStationBySystemAndName byName).1
    · exact (of_findStationByMarketId byMarket).1
  · by_cases same : row.id = (data.merged P env updatedAt (db.mergedOnto data)).id
    · exact .inr (db'.stations.eq_of_clash StationRow.clash_symm member merges.member (.inl same))
    · have kept : row ∈ db'.stations.rows.filter fun row =>
          row.id ≠ (data.merged P env updatedAt (db.mergedOnto data)).id :=
        List.mem_filter.mpr ⟨member, decide_eq_true same⟩
      rw [merges.others] at kept
      exact .inl (List.mem_filter.mp kept).1

instance (data : StationData K) : Decidable data.HasCarrierShape :=
  inferInstanceAs (Decidable (_ ∧ _))

instance (data : StationData K) : Decidable data.IsCarrier := inferInstanceAs (Decidable (_ ∧ _))

/-- The row that a station is merged onto: the carrier of the system for a carrier, and else
the row of its name in its system or of its market id. -/
def Db.survivorOf (data : StationData K) (db : Db P) : Option (StationRow K) :=
  if data.IsCarrier then (db.findStrongholdCarriersInSystem data.systemId).head?
  else db.mergedRow data

/-- Carriers of systems that are no strongholds are not written; every other station is. -/
theorem writesStation_upsertStation {data : StationData K}
    (done : upsertStation env data db = .ok db') :
    (data.IsCarrier ∧ ¬ db.StrongholdAt data.systemId ∧ db' = db) ∨
      (data.IsCarrier → db.StrongholdAt data.systemId) ∧
        ∃ insert, Normalized P data insert ∧ Db.WritesStation insert env
          (env.newDate .upsertStation) (db.survivorOf data) db db' := by
  obtain ⟨validated, parsed, done⟩ := bind_eq_ok.mp done
  have parsed := orFail_eq_ok.mp parsed
  have normalized := normalized_of_parseStationInsert parsed
  simp only at done
  split at done
  · rename_i carrier
    have isCarrier := (isStrongholdCarrier_iff parsed).mp carrier
    obtain ⟨same, outside⟩ | ⟨stronghold, writes⟩ := of_upsertStrongholdCarrier done
    · exact .inl ⟨isCarrier, normalized.systemId ▸ outside, same⟩
    · rw [normalized.systemId] at stronghold writes
      refine .inr ⟨fun _ => stronghold, _, normalized, ?_⟩
      rw [Db.survivorOf, if_pos isCarrier]
      exact writes
  · rename_i regular
    have notCarrier := mt (isStrongholdCarrier_iff parsed).mpr regular
    have writes := writesStation_upsertRegularStation done
    have found : db.mergedOnto (normalizeStrongholdCarrierName validated) =
        db.survivorOf data := by
      obtain ⟨name, market, system, -⟩ := of_parseStationInsert parsed
      rw [Db.survivorOf, if_neg notCarrier, normalize_of_regular regular, Db.mergedOnto,
        Db.mergedRow, name, market, system]
    rw [found] at writes
    exact .inr ⟨fun isCarrier => absurd isCarrier notCarrier, _, normalized, writes⟩

/-! ## Runs -/

/-- The columns agree in every station. -/
def Db.ServicesAgree (db : Db P) : Prop := ∀ row ∈ db.stations.rows, row.ServicesAgree P

theorem servicesAgree_of_stage (normal : P.NormalizesText) (agree : db.ServicesAgree)
    (stage : Stage env db db') : db'.ServicesAgree := by
  have of_same (same : db'.stations = db.stations) : db'.ServicesAgree := by
    rw [Db.ServicesAgree, same]
    exact agree
  cases stage with
  | system done => exact of_same (by rw [frame_upsertSystem done])
  | powerplay done =>
      obtain ⟨-, same⟩ | cleared := stations_processPowerplayData done
      · exact of_same same
      · intro row member
        rw [cleared] at member
        exact agree row (List.mem_filter.mp member).1
  | factions done => exact of_same (by rw [frame_processFactionsData done])
  | stationFaction done => exact of_same (by rw [frame_upsertFactions done])
  | station done =>
      obtain ⟨-, -, rfl⟩ | ⟨-, insert, normalized, writes⟩ := writesStation_upsertStation done
      · exact agree
      · have upserts := writes.upsertsServices normal normalized
        intro row member
        obtain old | rfl := upserts.others row member
        · exact agree row old
        · exact upserts.services.agree fun before merged =>
            .inl (agree before (upserts.merged before merged).1)

/-- The columns agree in every station that the worker can leave. -/
theorem servicesAgree_of_reachable (normal : P.NormalizesText) (reachable : WorkerReachable db) :
    db.ServicesAgree := by
  refine reachable.of_stages (fun row member => (nomatch member)) ?_
  exact fun env before after agree stage => servicesAgree_of_stage normal agree stage

/-- **The supported services of a station are those of its services.** Every call of
`upsertStation` that writes leaves such a row, inserted when there is no row to merge onto and
otherwise in place of that row. So every station that the worker can leave is such a row. -/
theorem upsertStation_keeps_servicesV2 (normal : P.NormalizesText) :
    (∀ (env : TxEnv) (data : StationData K) (db db' : Db P),
      upsertStation env data db = .ok db' →
        (data.IsCarrier ∧ ¬ db.StrongholdAt data.systemId ∧ db' = db) ∨
          (data.IsCarrier → db.StrongholdAt data.systemId) ∧
            ∃ station, UpsertsServices env data db db' (db.survivorOf data) station) ∧
      ∀ db : Db P, WorkerReachable db → db.ServicesAgree := by
  refine ⟨fun env data db db' done => ?_, fun db reachable => servicesAgree_of_reachable normal
    reachable⟩
  obtain unwritten | ⟨stronghold, insert, normalized, writes⟩ := writesStation_upsertStation done
  · exact .inl unwritten
  · exact .inr ⟨stronghold, _, writes.upsertsServices normal normalized⟩

/-- A station from before the second column was added. -/
def sampleUnmigrated : StationRow ℚ where
  id := .ofNat 7
  name := "Galileo"
  marketId := some 1
  stationType := none
  systemId := .ofNat 1
  controllingFactionId := .ofNat 0
  distanceFromStar := 500
  allegiance := none
  government := none
  economy := none
  economies := []
  services := [.string " Dock", .null, .string "teleporter"]
  servicesV2 := []
  landingPadsSmall := 4
  landingPadsMedium := 4
  landingPadsLarge := 2
  createdAt := 0
  updatedAt := 0

/-- A message about that station that leaves its services out. -/
def sampleWithoutServices : StationData ℚ where
  name := "Galileo"
  marketId := 1
  stationType := .undefined
  systemId := .ofNat 1
  controllingFactionId := .ofNat 0
  distanceFromStar := 500
  allegiance := .undefined
  government := .undefined
  economy := .undefined
  economies := none
  services := none
  landingPadsSmall := none
  landingPadsMedium := none
  landingPadsLarge := none

/-- The empty column of the station is filled. -/
theorem upsertStation_keeps_servicesV2_sample :
    ∃ db db' : Db asciiPlatform, db.stations.rows = [sampleUnmigrated] ∧
      upsertStation (sampleEnv 1) sampleWithoutServices db = .ok db' ∧
      (db'.stations.rows.map fun row => row.servicesV2) = [[⟨"dock", by decide⟩]] ∧
      ∃ station, UpsertsServices (sampleEnv 1) sampleWithoutServices db db'
        (db.survivorOf sampleWithoutServices) station := by
  let db : Db asciiPlatform :=
    { Db.empty with stations := ⟨[sampleUnmigrated], List.pairwise_singleton _ _⟩ }
  have filled : ((upsertStation (sampleEnv 1) sampleWithoutServices db).toOption.map fun db' =>
      db'.stations.rows.map fun row => row.servicesV2) = some [[⟨"dock", by decide⟩]] := by
    decide +kernel
  cases done : upsertStation (sampleEnv 1) sampleWithoutServices db with
  | error failed =>
      rw [done] at filled
      cases filled
  | ok db' =>
      rw [done] at filled
      have upserts := (upsertStation_keeps_servicesV2 normalizesText_asciiPlatform).1 _ _ _ _ done
      refine ⟨db, db', rfl, done, Option.some.inj filled, ?_⟩
      obtain ⟨carrier, -⟩ | ⟨-, written⟩ := upserts
      · exact absurd carrier (by decide)
      · exact written

end Upsert

end EliteHubVault
