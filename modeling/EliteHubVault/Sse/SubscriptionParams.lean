import EliteHubVault.Delivery.Deployment

/-!
# Subscription queries

A realtime connection is opened by the parameters of its URL: an event type, the ids of powers or
factions, and the ids of systems if the client asks for some only. They are checked by a schema
for powerplay events or by one for faction events; the answer to a query that is not accepted
names the first parameter at fault.

What is accepted is a valid query, every valid query has parameters, and a connection gets the
events that its parameters name and no others (`subscription_query_exact`).
-/

set_option autoImplicit false

namespace EliteHubVault

open Library

/-! ## Parameters -/

/-- The decoded parameters of a URL, in order. -/
abbrev URLSearchParams := List (String × String)

namespace URLSearchParams

def getAll (name : String) (searchParams : URLSearchParams) : List String :=
  searchParams.filterMap fun (key, value) => if key = name then some value else none

def get (name : String) (searchParams : URLSearchParams) : Option String :=
  (searchParams.getAll name).head?

end URLSearchParams

/-! ## Schemas -/

/-- What a schema finds fault with. -/
inductive IssueCode where
  | invalidOption (options : List String)
  | tooSmallString (minimum : ℕ)
  | tooSmallArray (minimum : ℕ)
  | tooBigArray (maximum : ℕ)
deriving DecidableEq

/-- A fault with a field or with one of its items. -/
structure Issue where
  field : String
  item : Option ℕ
  code : IssueCode
deriving DecidableEq

/-- `path.join('.')`. -/
def Issue.path (issue : Issue) : String :=
  match issue.item with
  | none => issue.field
  | some index => issue.field ++ "." ++ toString index

/-- `z.array(z.string().min(1))` with its bounds: the items first, then the length. -/
def arrayIssues (field : String) (minimum maximum : ℕ) (values : List String) : List Issue :=
  (values.zipIdx.filterMap fun (value, index) =>
      if value = "" then some ⟨field, some index, .tooSmallString 1⟩ else none) ++
    (if values.length < minimum then [⟨field, none, .tooSmallArray minimum⟩] else []) ++
    if maximum < values.length then [⟨field, none, .tooBigArray maximum⟩] else []

/-- `SystemIdSchema`: no system ids at all are left out. -/
def systemIdIssues (systemIds : List String) : List Issue := arrayIssues "systemId" 0 20 systemIds

def powerplaySubscriptionIssues (searchParams : URLSearchParams) : List Issue :=
  arrayIssues "powerId" 1 4 (searchParams.getAll "powerId") ++
    systemIdIssues (searchParams.getAll "systemId")

/-- The event types of `FactionSubscriptionQuerySchema`. -/
def factionEventTypes : List RealtimeEventType :=
  [.factionPresenceChanged, .factionStateChanged, .factionControlThreatChanged]

def factionEventTypeSchema (eventType : Option String) : Option RealtimeEventType :=
  factionEventTypes.find? fun known => some known.text = eventType

def factionSubscriptionIssues (searchParams : URLSearchParams) : List Issue :=
  (match factionEventTypeSchema (searchParams.get "eventType") with
    | some _ => []
    | none => [⟨"eventType", none, .invalidOption (factionEventTypes.map RealtimeEventType.text)⟩]) ++
    arrayIssues "factionId" 1 20 (searchParams.getAll "factionId") ++
    systemIdIssues (searchParams.getAll "systemId")

/-! ## Queries -/

/-- What a client subscribes to. The parameter of the routing keys goes with the event type. -/
structure SseSubscriptionQuery where
  eventType : RealtimeEventType
  routingKeys : List String
  systemIds : Option (List String)
deriving DecidableEq

def routingKeyParam : RealtimeEventType → String
  | .systemPowerplayUpdated => "powerId"
  | .factionPresenceChanged | .factionStateChanged | .factionControlThreatChanged => "factionId"

/-- `dedupeList`, for each list. -/
def querySubscription (eventType : RealtimeEventType) (searchParams : URLSearchParams) :
    SseSubscriptionQuery where
  eventType := eventType
  routingKeys := distinct (searchParams.getAll (routingKeyParam eventType))
  systemIds :=
    if searchParams.getAll "systemId" = [] then none
    else some (distinct (searchParams.getAll "systemId"))

/-- The message of the first issue, as the schema library words it. -/
def buildError (message : IssueCode → String) (issues : List Issue) : String :=
  match issues with
  | [] => "Invalid query"
  | firstIssue :: _ => firstIssue.path ++ ": " ++ message firstIssue.code

def parseSseSubscriptionQuery (message : IssueCode → String) (searchParams : URLSearchParams) :
    Except String SseSubscriptionQuery :=
  if searchParams.get "eventType" = some systemPowerplayUpdatedEvent then
    match powerplaySubscriptionIssues searchParams with
    | [] => .ok (querySubscription .systemPowerplayUpdated searchParams)
    | issues => .error (buildError message issues)
  else
    match factionSubscriptionIssues searchParams,
        factionEventTypeSchema (searchParams.get "eventType") with
    | [], some eventType => .ok (querySubscription eventType searchParams)
    | issues, _ => .error (buildError message issues)

/-- An answer to a request that is not served. -/
structure ErrorResponse where
  status : ℕ
  error : String
  message : String
deriving DecidableEq

/-- `openRealtimeSseConnection`, up to the quota: the registration that the query asks for. -/
def connectionOfQuery {K : Type} (codec : JsonCodec K) (message : IssueCode → String)
    (response : ServerResponse) (searchParams : URLSearchParams) :
    Except ErrorResponse RegisterConnectionInput :=
  match parseSseSubscriptionQuery message searchParams with
  | .error text => .error ⟨400, "Bad Request", text⟩
  | .ok query =>
      match getRealtimeEventSpec codec query.eventType.text with
      | none => .error ⟨400, "Bad Request", "Unsupported eventType"⟩
      | some eventSpec => .ok
          { response
            eventType := eventSpec.eventType
            routingKeys := query.routingKeys
            systemIds := query.systemIds }

/-! ## Accepted queries -/

/-- How many routing keys a query may have. -/
def maxRoutingKeys : RealtimeEventType → ℕ
  | .systemPowerplayUpdated => 4
  | .factionPresenceChanged | .factionStateChanged | .factionControlThreatChanged => 20

theorem arrayIssues_eq_nil_iff {field : String} {minimum maximum : ℕ} {values : List String} :
    arrayIssues field minimum maximum values = [] ↔
      (∀ value ∈ values, value ≠ "") ∧ minimum ≤ values.length ∧ values.length ≤ maximum := by
  have items : (values.zipIdx.filterMap fun (value, index) =>
      if value = "" then some (⟨field, some index, .tooSmallString 1⟩ : Issue) else none) = [] ↔
      ∀ value ∈ values, value ≠ "" := by
    rw [List.filterMap_eq_nil_iff]
    constructor
    · intro plain value member empty
      obtain ⟨index, here⟩ := List.mem_iff_getElem?.mp member
      have faultless := plain (value, index) (List.mem_zipIdx_iff_getElem?.mpr here)
      cases (if_pos empty).symm.trans faultless
    · rintro plain ⟨value, index⟩ member
      exact if_neg (plain value (List.mem_of_getElem? (List.mem_zipIdx_iff_getElem?.mp member)))
  rw [arrayIssues, List.append_eq_nil_iff, List.append_eq_nil_iff, items]
  simp only [ite_eq_right_iff, List.cons_ne_nil, imp_false, not_lt, and_assoc]

/-- The parameters are in order for this event type. -/
structure Accepts (eventType : RealtimeEventType) (searchParams : URLSearchParams) : Prop where
  named : searchParams.get "eventType" = some eventType.text
  keys : ∀ key ∈ searchParams.getAll (routingKeyParam eventType), key ≠ ""
  someKey : searchParams.getAll (routingKeyParam eventType) ≠ []
  fewKeys : (searchParams.getAll (routingKeyParam eventType)).length ≤ maxRoutingKeys eventType
  systems : ∀ systemId ∈ searchParams.getAll "systemId", systemId ≠ ""
  fewSystems : (searchParams.getAll "systemId").length ≤ 20

theorem systemIdIssues_eq_nil_iff {systemIds : List String} : systemIdIssues systemIds = [] ↔
    (∀ systemId ∈ systemIds, systemId ≠ "") ∧ systemIds.length ≤ 20 := by
  rw [systemIdIssues, arrayIssues_eq_nil_iff, and_iff_right (Nat.zero_le _)]

theorem powerplaySubscriptionIssues_eq_nil_iff {searchParams : URLSearchParams}
    (named : searchParams.get "eventType" = some systemPowerplayUpdatedEvent) :
    powerplaySubscriptionIssues searchParams = [] ↔
      Accepts .systemPowerplayUpdated searchParams := by
  rw [powerplaySubscriptionIssues, List.append_eq_nil_iff, arrayIssues_eq_nil_iff,
    systemIdIssues_eq_nil_iff]
  constructor
  · rintro ⟨⟨keys, someKey, fewKeys⟩, systems, fewSystems⟩
    exact ⟨named, keys, List.length_pos_iff.mp someKey, fewKeys, systems, fewSystems⟩
  · intro accepts
    exact ⟨⟨accepts.keys, List.length_pos_iff.mpr accepts.someKey, accepts.fewKeys⟩,
      accepts.systems, accepts.fewSystems⟩

theorem factionEventTypeSchema_eq_some_iff {text : Option String}
    {eventType : RealtimeEventType} : factionEventTypeSchema text = some eventType ↔
      text = some eventType.text ∧ eventType ≠ .systemPowerplayUpdated := by
  constructor
  · intro found
    obtain ⟨same, member⟩ := List.find?_eq_some_iff_append.mp found
    refine ⟨(of_decide_eq_true same).symm, ?_⟩
    rintro rfl
    exact absurd (List.mem_of_find?_eq_some found) (by decide)
  · rintro ⟨rfl, faction⟩
    cases eventType with
    | systemPowerplayUpdated => exact absurd rfl faction
    | factionPresenceChanged | factionStateChanged | factionControlThreatChanged => decide

theorem factionSubscriptionIssues_eq_nil_iff {searchParams : URLSearchParams}
    {eventType : RealtimeEventType} (faction : eventType ≠ .systemPowerplayUpdated)
    (named : searchParams.get "eventType" = some eventType.text) :
    factionSubscriptionIssues searchParams = [] ↔ Accepts eventType searchParams := by
  have known := factionEventTypeSchema_eq_some_iff.mpr ⟨named, faction⟩
  have param : routingKeyParam eventType = "factionId" := by
    cases eventType with
    | systemPowerplayUpdated => exact absurd rfl faction
    | factionPresenceChanged | factionStateChanged | factionControlThreatChanged => rfl
  have bound : maxRoutingKeys eventType = 20 := by
    cases eventType with
    | systemPowerplayUpdated => exact absurd rfl faction
    | factionPresenceChanged | factionStateChanged | factionControlThreatChanged => rfl
  rw [factionSubscriptionIssues, known, List.append_eq_nil_iff, List.append_eq_nil_iff,
    arrayIssues_eq_nil_iff, systemIdIssues_eq_nil_iff, and_iff_right rfl]
  constructor
  · rintro ⟨⟨keys, someKey, fewKeys⟩, systems, fewSystems⟩
    refine ⟨named, ?_, ?_, ?_, systems, fewSystems⟩
    · rwa [param]
    · rw [param]
      exact List.length_pos_iff.mp someKey
    · rwa [param, bound]
  · intro accepts
    have keys := accepts.keys
    have someKey := accepts.someKey
    have fewKeys := accepts.fewKeys
    rw [param] at keys someKey
    rw [param, bound] at fewKeys
    exact ⟨⟨keys, List.length_pos_iff.mpr someKey, fewKeys⟩, accepts.systems, accepts.fewSystems⟩

theorem text_eq_systemPowerplayUpdatedEvent_iff {eventType : RealtimeEventType} :
    eventType.text = systemPowerplayUpdatedEvent ↔ eventType = .systemPowerplayUpdated := by
  cases eventType <;> decide

/-- **A query is accepted exactly when its parameters are in order.** -/
theorem parseSseSubscriptionQuery_eq_ok_iff {message : IssueCode → String}
    {searchParams : URLSearchParams} {query : SseSubscriptionQuery} :
    parseSseSubscriptionQuery message searchParams = .ok query ↔
      Accepts query.eventType searchParams ∧
        query = querySubscription query.eventType searchParams := by
  unfold parseSseSubscriptionQuery
  split
  · rename_i named
    constructor
    · intro parsed
      split at parsed
      · rename_i faultless
        cases parsed
        exact ⟨(powerplaySubscriptionIssues_eq_nil_iff named).mp faultless, rfl⟩
      · cases parsed
    · rintro ⟨accepts, same⟩
      have own := Option.some.inj (accepts.named.symm.trans named)
      rw [text_eq_systemPowerplayUpdatedEvent_iff] at own
      rw [own] at accepts same
      rw [(powerplaySubscriptionIssues_eq_nil_iff named).mpr accepts, same]
  · rename_i other
    constructor
    · intro parsed
      split at parsed
      · rename_i eventType faultless known
        obtain ⟨named, faction⟩ := factionEventTypeSchema_eq_some_iff.mp known
        cases parsed
        exact ⟨(factionSubscriptionIssues_eq_nil_iff faction named).mp faultless, rfl⟩
      · cases parsed
    · rintro ⟨accepts, same⟩
      have faction : query.eventType ≠ .systemPowerplayUpdated := by
        intro own
        rw [← text_eq_systemPowerplayUpdatedEvent_iff] at own
        exact other (own ▸ accepts.named)
      rw [(factionSubscriptionIssues_eq_nil_iff faction accepts.named).mpr accepts,
        factionEventTypeSchema_eq_some_iff.mpr ⟨accepts.named, faction⟩, same]
      rfl

/-! ## Valid queries and their parameters -/

/-- **A valid query**: distinct keys and systems, within the bounds. -/
structure SseSubscriptionQuery.Valid (query : SseSubscriptionQuery) : Prop where
  keys : query.routingKeys.Nodup
  namedKeys : ∀ key ∈ query.routingKeys, key ≠ ""
  someKey : query.routingKeys ≠ []
  fewKeys : query.routingKeys.length ≤ maxRoutingKeys query.eventType
  systems : ∀ systemIds ∈ query.systemIds, systemIds.Nodup ∧ systemIds ≠ [] ∧
    systemIds.length ≤ 20 ∧ ∀ systemId ∈ systemIds, systemId ≠ ""

/-- The parameters of a query. -/
def SseSubscriptionQuery.searchParams (query : SseSubscriptionQuery) : URLSearchParams :=
  ("eventType", query.eventType.text) ::
    (query.routingKeys.map fun key => (routingKeyParam query.eventType, key)) ++
    (query.systemIds.getD []).map fun systemId => ("systemId", systemId)

/-! ## Lists without duplicates -/

section Distinct

variable {α : Type} [DecidableEq α] {values : List α}

theorem length_distinct_le : (distinct values).length ≤ values.length := by
  induction values using List.reverseRecOn with
  | nil => exact le_rfl
  | append_singleton values value ih =>
      rw [distinct_append_singleton, addOnce, List.length_append, List.length_singleton]
      split
      · omega
      · rw [List.length_append, List.length_singleton]
        omega

theorem distinct_of_nodup (nodup : values.Nodup) : distinct values = values := by
  induction values using List.reverseRecOn with
  | nil => rfl
  | append_singleton values value ih =>
      obtain ⟨first, -, apart⟩ := List.nodup_append.mp nodup
      have fresh : value ∉ values := fun member => apart value member value (by simp) rfl
      rw [distinct_append_singleton, ih first, addOnce, if_neg fresh]

theorem distinct_ne_nil (nonempty : values ≠ []) : distinct values ≠ [] := by
  obtain ⟨value, member⟩ := List.exists_mem_of_ne_nil values nonempty
  exact List.ne_nil_of_mem (mem_distinct.mpr member)

end Distinct

/-- What is accepted is valid. -/
theorem Accepts.valid {eventType : RealtimeEventType} {searchParams : URLSearchParams}
    (accepts : Accepts eventType searchParams) :
    (querySubscription eventType searchParams).Valid where
  keys := nodup_distinct _
  namedKeys key member := accepts.keys key (mem_distinct.mp member)
  someKey := distinct_ne_nil accepts.someKey
  fewKeys := length_distinct_le.trans accepts.fewKeys
  systems systemIds member := by
    obtain ⟨given, same⟩ := Option.mem_ite_none_left.mp member
    obtain rfl := Option.some.inj same
    exact ⟨nodup_distinct _, distinct_ne_nil given, length_distinct_le.trans accepts.fewSystems,
      fun systemId member => accepts.systems systemId (mem_distinct.mp member)⟩

section Parameters

variable {name other : String} {values : List String} {rest : URLSearchParams}

theorem getAll_append (first : URLSearchParams) :
    URLSearchParams.getAll name (first ++ rest) = first.getAll name ++ rest.getAll name :=
  List.filterMap_append

theorem getAll_map_self : URLSearchParams.getAll name (values.map fun value => (name, value)) =
    values := by
  rw [URLSearchParams.getAll, List.filterMap_map]
  refine (List.filterMap_congr fun value _ => ?_).trans List.filterMap_some
  exact if_pos rfl

theorem getAll_map_of_ne (different : other ≠ name) :
    URLSearchParams.getAll name (values.map fun value => (other, value)) = [] := by
  rw [URLSearchParams.getAll, List.filterMap_map, List.filterMap_eq_nil_iff]
  exact fun value _ => if_neg different

end Parameters

section RoundTrip

variable {query : SseSubscriptionQuery}

theorem routingKeyParam_ne (eventType : RealtimeEventType) :
    routingKeyParam eventType ≠ "eventType" ∧ routingKeyParam eventType ≠ "systemId" := by
  cases eventType <;> decide

theorem searchParams_eq (query : SseSubscriptionQuery) : query.searchParams =
    [query.eventType.text].map (fun text => ("eventType", text)) ++
      query.routingKeys.map (fun key => (routingKeyParam query.eventType, key)) ++
      (query.systemIds.getD []).map fun systemId => ("systemId", systemId) := rfl

theorem get_eventType_searchParams :
    query.searchParams.get "eventType" = some query.eventType.text := by
  rw [URLSearchParams.get, searchParams_eq, getAll_append, getAll_append, getAll_map_self]
  rfl

theorem getAll_routingKeyParam_searchParams :
    query.searchParams.getAll (routingKeyParam query.eventType) = query.routingKeys := by
  obtain ⟨first, last⟩ := routingKeyParam_ne query.eventType
  rw [searchParams_eq, getAll_append, getAll_append, getAll_map_self,
    getAll_map_of_ne first.symm, getAll_map_of_ne last.symm, List.nil_append, List.append_nil]

theorem getAll_systemId_searchParams :
    query.searchParams.getAll "systemId" = query.systemIds.getD [] := by
  rw [searchParams_eq, getAll_append, getAll_append, getAll_map_self,
    getAll_map_of_ne (by decide), getAll_map_of_ne (routingKeyParam_ne query.eventType).2]
  rfl

/-- **A valid query has parameters**, and they are accepted as this query. -/
theorem SseSubscriptionQuery.Valid.parse (valid : query.Valid) (message : IssueCode → String) :
    parseSseSubscriptionQuery message query.searchParams = .ok query := by
  obtain ⟨keys, namedKeys, someKey, fewKeys, systems⟩ := valid
  rw [parseSseSubscriptionQuery_eq_ok_iff]
  refine ⟨⟨get_eventType_searchParams, ?_, ?_, ?_, ?_, ?_⟩, ?_⟩
  · rwa [getAll_routingKeyParam_searchParams]
  · rwa [getAll_routingKeyParam_searchParams]
  · rwa [getAll_routingKeyParam_searchParams]
  · rw [getAll_systemId_searchParams]
    cases named : query.systemIds with
    | none => exact fun _ member => absurd member List.not_mem_nil
    | some systemIds => exact (systems systemIds named).2.2.2
  · rw [getAll_systemId_searchParams]
    cases named : query.systemIds with
    | none => exact Nat.zero_le _
    | some systemIds => exact (systems systemIds named).2.2.1
  · rw [querySubscription, getAll_routingKeyParam_searchParams, getAll_systemId_searchParams,
      distinct_of_nodup keys]
    obtain ⟨eventType, routingKeys, systemIds⟩ := query
    cases systemIds with
    | none => rfl
    | some systemIds =>
        obtain ⟨nodup, nonempty, -, -⟩ := systems systemIds rfl
        simp only [Option.getD_some, if_neg nonempty, distinct_of_nodup nodup]

end RoundTrip

/-! ## Errors -/

/-- The issue is there: the field that it names is at fault. -/
def Issue.IsFault (searchParams : URLSearchParams) (issue : Issue) : Prop :=
  match issue.code with
  | .invalidOption options => issue.field = "eventType" ∧
      ∀ option ∈ options, searchParams.get "eventType" ≠ some option
  | .tooSmallString _ => ∃ index, issue.item = some index ∧
      (searchParams.getAll issue.field)[index]? = some ""
  | .tooSmallArray minimum => (searchParams.getAll issue.field).length < minimum
  | .tooBigArray maximum => maximum < (searchParams.getAll issue.field).length

theorem isFault_of_mem_arrayIssues {searchParams : URLSearchParams} {field : String}
    {minimum maximum : ℕ} {issue : Issue}
    (member : issue ∈ arrayIssues field minimum maximum (searchParams.getAll field)) :
    issue.IsFault searchParams := by
  rw [arrayIssues, List.mem_append, List.mem_append] at member
  obtain (inItem | short) | long := member
  · obtain ⟨⟨value, index⟩, inList, found⟩ := List.mem_filterMap.mp inItem
    obtain ⟨empty, same⟩ := Option.ite_none_right_eq_some.mp found
    cases same
    refine ⟨index, rfl, ?_⟩
    rw [← show value = "" from empty]
    exact List.mem_zipIdx_iff_getElem?.mp inList
  · obtain ⟨few, same⟩ := List.mem_ite_nil_right.mp short
    rw [List.mem_singleton.mp same]
    exact few
  · obtain ⟨many, same⟩ := List.mem_ite_nil_right.mp long
    rw [List.mem_singleton.mp same]
    exact many

theorem isFault_of_mem_factionSubscriptionIssues {searchParams : URLSearchParams} {issue : Issue}
    (member : issue ∈ factionSubscriptionIssues searchParams) : issue.IsFault searchParams := by
  rw [factionSubscriptionIssues, List.mem_append, List.mem_append] at member
  obtain (inType | inKeys) | inSystems := member
  · split at inType
    · cases inType
    · rename_i unknown
      rw [List.mem_singleton.mp inType]
      refine ⟨rfl, fun option listed named => ?_⟩
      obtain ⟨eventType, known, rfl⟩ := List.mem_map.mp listed
      have found := factionEventTypeSchema_eq_some_iff.mpr ⟨named, fun own =>
        absurd (own ▸ known) (by decide)⟩
      cases unknown.symm.trans found
  · exact isFault_of_mem_arrayIssues inKeys
  · exact isFault_of_mem_arrayIssues inSystems

theorem isFault_of_mem_powerplaySubscriptionIssues {searchParams : URLSearchParams}
    {issue : Issue} (member : issue ∈ powerplaySubscriptionIssues searchParams) :
    issue.IsFault searchParams := by
  rw [powerplaySubscriptionIssues, List.mem_append] at member
  obtain inKeys | inSystems := member
  · exact isFault_of_mem_arrayIssues inKeys
  · exact isFault_of_mem_arrayIssues inSystems

theorem exists_buildError_eq (message : IssueCode → String) {issues : List Issue}
    (faulty : issues ≠ []) : ∃ issue ∈ issues,
      buildError message issues = issue.path ++ ": " ++ message issue.code := by
  cases issues with
  | nil => exact absurd rfl faulty
  | cons issue rest => exact ⟨issue, List.mem_cons_self, rfl⟩

/-- **Every error names a field that is at fault.** -/
theorem isFault_of_parseSseSubscriptionQuery_eq_error {message : IssueCode → String}
    {searchParams : URLSearchParams} {text : String}
    (refused : parseSseSubscriptionQuery message searchParams = .error text) :
    ∃ issue : Issue, issue.IsFault searchParams ∧
      text = issue.path ++ ": " ++ message issue.code := by
  unfold parseSseSubscriptionQuery at refused
  split at refused
  · split at refused
    · cases refused
    · rename_i faulty
      cases refused
      obtain ⟨issue, member, same⟩ := exists_buildError_eq message faulty
      exact ⟨issue, isFault_of_mem_powerplaySubscriptionIssues member, same⟩
  · split at refused
    · cases refused
    · rename_i unaccepted
      cases refused
      have faulty : factionSubscriptionIssues searchParams ≠ [] := by
        intro faultless
        cases known : factionEventTypeSchema (searchParams.get "eventType") with
        | some eventType => exact unaccepted eventType faultless known
        | none => simp [factionSubscriptionIssues, known] at faultless
      obtain ⟨issue, member, same⟩ := exists_buildError_eq message faulty
      exact ⟨issue, isFault_of_mem_factionSubscriptionIssues member, same⟩

/-! ## The connection of a query -/

/-- What the parameters name. -/
def URLSearchParams.Names {K : Type} (searchParams : URLSearchParams)
    (payload : RealtimePayload K) : Prop :=
  searchParams.get "eventType" = some payload.eventType.text ∧ payload.routingKey ≠ "" ∧
    payload.routingKey ∈ searchParams.getAll (routingKeyParam payload.eventType) ∧
    (searchParams.getAll "systemId" = [] ∨ payload.systemId ∈ searchParams.getAll "systemId")

/-- A connection wants what the parameters of its query name. -/
theorem Accepts.wants_iff {K : Type} {eventType : RealtimeEventType}
    {searchParams : URLSearchParams} (accepts : Accepts eventType searchParams)
    (response : ServerResponse) (payload : RealtimePayload K) :
    (SseConnection.ofInput
      { response
        eventType
        routingKeys := (querySubscription eventType searchParams).routingKeys
        systemIds := (querySubscription eventType searchParams).systemIds }).Wants payload ↔
      searchParams.Names payload := by
  have systems : (∀ systemIds, ((querySubscription eventType searchParams).systemIds.map
      distinct) = some systemIds → payload.systemId ∈ systemIds) ↔
      searchParams.getAll "systemId" = [] ∨ payload.systemId ∈ searchParams.getAll "systemId" := by
    by_cases all : searchParams.getAll "systemId" = []
    · simp [querySubscription, all]
    · simp [querySubscription, all]
  rw [SseConnection.Wants, URLSearchParams.Names, accepts.named, Option.some.injEq,
    RealtimeEventType.text_inj]
  refine and_congr_right fun own => and_congr_right fun _ => ?_
  have same : eventType = payload.eventType := own
  rw [← same]
  refine and_congr ?_ systems
  simp [SseConnection.ofInput, querySubscription]

/-- **Subscription queries are exact.** What is accepted is a valid query, and the connection that
it opens wants the events that the parameters name and no others; every valid query is accepted
from its parameters; and an error names a parameter that is at fault. -/
theorem subscription_query_exact {K : Type} (codec : JsonCodec K) (message : IssueCode → String)
    (response : ServerResponse) (searchParams : URLSearchParams) :
    (∀ input, connectionOfQuery codec message response searchParams = .ok input →
      (∃ query, query.Valid ∧ parseSseSubscriptionQuery message searchParams = .ok query) ∧
        ∀ payload : RealtimePayload K,
          (SseConnection.ofInput input).Wants payload ↔ searchParams.Names payload) ∧
      (∀ failure, connectionOfQuery codec message response searchParams = .error failure →
        failure.status = 400 ∧ ∃ issue : Issue, issue.IsFault searchParams ∧
          failure.message = issue.path ++ ": " ++ message issue.code) ∧
      ∀ query : SseSubscriptionQuery, query.Valid →
        parseSseSubscriptionQuery message query.searchParams = .ok query := by
  refine ⟨fun input opened => ?_, fun failure refused => ?_, fun query valid =>
    valid.parse message⟩
  · cases parsed : parseSseSubscriptionQuery message searchParams with
    | error text => simp [connectionOfQuery, parsed] at opened
    | ok query =>
        obtain ⟨accepts, same⟩ := parseSseSubscriptionQuery_eq_ok_iff.mp parsed
        simp only [connectionOfQuery, parsed, getRealtimeEventSpec_text, Except.ok.injEq] at opened
        subst opened
        refine ⟨⟨query, same ▸ accepts.valid, rfl⟩, fun payload => ?_⟩
        have wants := accepts.wants_iff response payload
        rw [← same] at wants
        have eventType : (realtimeEventSpecs codec query.eventType).eventType =
            query.eventType := by
          cases query.eventType <;> rfl
        rw [eventType]
        exact wants
  · cases parsed : parseSseSubscriptionQuery message searchParams with
    | error text =>
        simp only [connectionOfQuery, parsed, Except.error.injEq] at refused
        subst refused
        exact ⟨rfl, isFault_of_parseSseSubscriptionQuery_eq_error parsed⟩
    | ok query => simp [connectionOfQuery, parsed, getRealtimeEventSpec_text] at refused

end EliteHubVault
