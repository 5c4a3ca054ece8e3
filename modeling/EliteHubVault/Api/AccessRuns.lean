import EliteHubVault.Api.RouteAccess

/-!
# Runs of the access middleware

Any number of requests are in the middleware at a time. `Follows` says where a request is, and
from it what it was charged and how it was answered. The requests that a budget has admitted are
the allowed calls of the limiter on its key, so the sliding window of the limiter is one of the
requests of one client.
-/

set_option autoImplicit false

namespace EliteHubVault

open Library

/-! ## Requests -/

/-- What the limiter has decided for a request, at the time that the call has read. -/
structure DecidedRequest where
  request : LimitedRequest
  now : ℤ
  decision : RateLimitDecision

/-- A request in the middleware, with what was resolved and decided for it. -/
structure AccessRequest where
  ctx : RequestContext
  resolution : Option ApiConsumerResolution
  decided : Option DecidedRequest
  access : Access

namespace AccessRequest

def receive (ctx : RequestContext) : AccessRequest where
  ctx := ctx
  resolution := none
  decided := none
  access := routeAccessMiddleware ctx

/-- The budget has admitted the request at a time after `earliest` up to `latest`. -/
def AdmittedIn (budget : Budget) (earliest latest : ℤ) (request : AccessRequest) : Prop :=
  ∃ decided ∈ request.decided, decided.request.budget = budget ∧
    decided.decision matches .ok _ ∧ earliest < decided.now ∧ decided.now ≤ latest

instance (budget : Budget) (earliest latest : ℤ) (request : AccessRequest) :
    Decidable (request.AdmittedIn budget earliest latest) :=
  inferInstanceAs (Decidable (∃ decided ∈ request.decided, _))

/-- **Where a request is.** -/
inductive Follows (request : AccessRequest) : Prop where
  | received (unresolved : request.resolution = none) (undecided : request.decided = none)
      (access : request.access = routeAccessMiddleware request.ctx)
  | resolved {rest : ApiConsumerResolution → Access} {resolution : ApiConsumerResolution}
      (begins : routeAccessMiddleware request.ctx = .resolve request.ctx.apiKey rest)
      (known : request.resolution = some resolution) (undecided : request.decided = none)
      (access : request.access = rest resolution)
  | decided {decided : DecidedRequest} {passed : Answer} (known : request.decided = some decided)
      (charged : Charged request.ctx request.resolution decided.request passed)
      (access : request.access = respondWithRateLimitDecision passed decided.decision)

end AccessRequest

/-! ## The server -/

/-- The limiter and the requests by their number. -/
structure AccessServer where
  limiter : LimiterState
  requests : OrderedMap ℕ AccessRequest

/-- A new request, an API key that is resolved in whatever way, a call of the limiter, or a call
of the limiter that Redis rejects without running its script. -/
inductive AccessAction where
  | receive (number : ℕ) (ctx : RequestContext)
  | resolved (number : ℕ) (resolution : ApiConsumerResolution)
  | consume (number : ℕ) (now : ℤ) (memberId : String) (time : ℤ)
  | reject (number : ℕ) (now : ℤ)

/-- The call of the limiter for a request. -/
def LimitedRequest.call (request : LimitedRequest) (now : ℤ) (memberId : String) (time : ℤ) :
    ConsumeCall := { key := request.key, limit := request.limit, now, memberId, time }

namespace AccessServer

def start : AccessServer := ⟨.start, .empty⟩

def next (server : AccessServer) : AccessAction → Option AccessServer
  | .receive number ctx =>
      if (server.requests.get number).isNone then
        some { server with requests := server.requests.set number (.receive ctx) }
      else none
  | .resolved number resolution =>
      (server.requests.get number).bind fun request =>
        match request.access with
        | .resolve _ andThen =>
            some { server with
              requests := server.requests.set number
                { request with resolution := some resolution, access := andThen resolution } }
        | _ => none
  | .consume number now memberId time =>
      (server.requests.get number).bind fun request =>
        match request.access with
        | .consume limited andThen =>
            let call := limited.call now memberId time
            let decision := (EliteHubVault.consume call server.limiter.redis).2
            (limiterNext server.limiter call).map fun limiter =>
              { limiter := limiter
                requests := server.requests.set number
                  { request with
                    decided := some ⟨limited, now, decision⟩, access := andThen decision } }
        | _ => none
  | .reject number now =>
      (server.requests.get number).bind fun request =>
        match request.access with
        | .consume limited andThen =>
            some { server with
              requests := server.requests.set number
                { request with
                  decided := some ⟨limited, now, .serviceUnavailable⟩
                  access := andThen .serviceUnavailable } }
        | _ => none

/-- The limiter is called in order. The key and the limit of a call do not matter. -/
def CallsInOrder (skew : ℤ) (server : AccessServer) : AccessAction → Prop
  | .consume _ now memberId time =>
      InOrder skew server.limiter { key := "", limit := 0, now, memberId, time }
  | _ => True

instance (skew : ℤ) (server : AccessServer) :
    (action : AccessAction) → Decidable (server.CallsInOrder skew action)
  | .consume .. => inferInstanceAs (Decidable (InOrder ..))
  | .receive .. | .resolved .. | .reject .. => inferInstanceAs (Decidable True)

/-- The number of requests that a budget has admitted in a window. -/
def admittedIn (budget : Budget) (earliest latest : ℤ) (server : AccessServer) : ℕ :=
  server.requests.count fun request => request.AdmittedIn budget earliest latest

variable {skew : ℤ} {server server' : AccessServer}

/-! ## What a step does -/

/-- **A step concerns one request**, which goes on from where it is. -/
inductive StepCases (server server' : AccessServer) : Prop where
  | receive {number : ℕ} {ctx : RequestContext} (new : server.requests.get number = none)
      (requests : server'.requests = server.requests.set number (.receive ctx))
      (limiter : server'.limiter = server.limiter)
  | resolved {number : ℕ} {request : AccessRequest} {apiKey : Option String}
      {rest : ApiConsumerResolution → Access} {resolution : ApiConsumerResolution}
      (known : server.requests.get number = some request)
      (access : request.access = .resolve apiKey rest)
      (requests : server'.requests = server.requests.set number
        { request with resolution := some resolution, access := rest resolution })
      (limiter : server'.limiter = server.limiter)
  | decided {number : ℕ} {request : AccessRequest} {limited : LimitedRequest}
      {rest : RateLimitDecision → Access} {now : ℤ} {decision : RateLimitDecision}
      (known : server.requests.get number = some request)
      (access : request.access = .consume limited rest)
      (requests : server'.requests = server.requests.set number
        { request with decided := some ⟨limited, now, decision⟩, access := rest decision })
      (limiter : server'.limiter = server.limiter ∧ decision = .serviceUnavailable ∨
        ∃ memberId time, limiterNext server.limiter (limited.call now memberId time) =
            some server'.limiter ∧
          decision = (EliteHubVault.consume (limited.call now memberId time)
            server.limiter.redis).2)

theorem step_cases {action : AccessAction} (taken : server.next action = some server') :
    StepCases server server' := by
  cases action with
  | receive number ctx =>
      obtain ⟨new, same⟩ := Option.ite_none_right_eq_some.mp taken
      cases same
      exact .receive (Option.isNone_iff_eq_none.mp new) rfl rfl
  | resolved number resolution =>
      obtain ⟨request, known, taken⟩ := Option.bind_eq_some_iff.mp taken
      cases access : request.access with
      | resolve apiKey andThen =>
          rw [access] at taken
          cases taken
          exact .resolved known access rfl rfl
      | done reply => simp [access] at taken
      | consume limited andThen => simp [access] at taken
  | consume number now memberId time =>
      obtain ⟨request, known, taken⟩ := Option.bind_eq_some_iff.mp taken
      cases access : request.access with
      | consume limited andThen =>
          rw [access] at taken
          obtain ⟨limiter, stepped, rfl⟩ := Option.map_eq_some_iff.mp taken
          exact .decided known access rfl (.inr ⟨memberId, time, stepped, rfl⟩)
      | done reply => simp [access] at taken
      | resolve apiKey andThen => simp [access] at taken
  | reject number now =>
      obtain ⟨request, known, taken⟩ := Option.bind_eq_some_iff.mp taken
      cases access : request.access with
      | consume limited andThen =>
          rw [access] at taken
          cases taken
          exact .decided known access rfl (.inl ⟨rfl, rfl⟩)
      | done reply => simp [access] at taken
      | resolve apiKey andThen => simp [access] at taken

/-! ## Where the requests are -/

theorem respondWithRateLimitDecision_eq (passed : Answer) (decision : RateLimitDecision) :
    ∃ reply, respondWithRateLimitDecision passed decision = .done reply := by
  cases decision <;> exact ⟨_, rfl⟩

/-- A request whose key is awaited was just received. -/
theorem resolves_of_follows {request : AccessRequest} (follows : request.Follows)
    {apiKey : Option String} {rest : ApiConsumerResolution → Access}
    (access : request.access = .resolve apiKey rest) :
    request.decided = none ∧
      routeAccessMiddleware request.ctx = .resolve request.ctx.apiKey rest := by
  cases follows with
  | received unresolved undecided same =>
      have begins := begins_routeAccessMiddleware request.ctx
      rw [← same, access] at begins ⊢
      cases begins with
      | settled settled =>
          obtain ⟨answer, impossible, -⟩ := settled
          cases impossible
      | resolves => exact ⟨undecided, rfl⟩
  | @resolved earlier resolution begins known undecided same =>
      have first := begins_routeAccessMiddleware request.ctx
      rw [begins] at first
      cases first with
      | settled settled =>
          obtain ⟨answer, impossible, -⟩ := settled
          cases impossible
      | resolves resolves =>
          obtain ⟨limited, later, charged⟩ | ⟨answer, settled, -⟩ := resolves.settled resolution
          · cases access.symm.trans (same.trans charged)
          · cases access.symm.trans (same.trans settled)
  | @decided decided passed known charged same =>
      obtain ⟨reply, done⟩ := respondWithRateLimitDecision_eq passed decided.decision
      cases access.symm.trans (same.trans done)

/-- A request that awaits the limiter is charged, for the first time. -/
theorem charged_of_follows {request : AccessRequest} (follows : request.Follows)
    {limited : LimitedRequest} {rest : RateLimitDecision → Access}
    (access : request.access = .consume limited rest) :
    request.decided = none ∧ IsCharged request.ctx request.resolution limited rest := by
  cases follows with
  | received unresolved undecided same =>
      have begins := begins_routeAccessMiddleware request.ctx
      rw [← same, access] at begins
      cases begins with
      | settled settled =>
          obtain ⟨answer, impossible, -⟩ := settled
          cases impossible
      | charged charged => exact ⟨undecided, unresolved ▸ charged⟩
  | @resolved earlier resolution begins known undecided same =>
      have first := begins_routeAccessMiddleware request.ctx
      rw [begins] at first
      cases first with
      | settled settled =>
          obtain ⟨answer, impossible, -⟩ := settled
          cases impossible
      | resolves resolves =>
          exact ⟨undecided, known ▸ resolves.charged resolution limited rest
            (same.symm.trans access)⟩
  | @decided decided passed known charged same =>
      obtain ⟨reply, done⟩ := respondWithRateLimitDecision_eq passed decided.decision
      cases access.symm.trans (same.trans done)

/-- **What holds in every run**: each request is where it should be, the admitted requests are
the allowed calls, and each call was made for a request. -/
structure Accounted (server : AccessServer) : Prop where
  follows : ∀ number request, server.requests.get number = some request → request.Follows
  admitted : ∀ (limited : LimitedRequest) (earliest latest : ℤ),
    server.admittedIn limited.budget earliest latest =
      server.limiter.allowedIn limited.key earliest latest
  served : ∀ call ∈ server.limiter.calls, ∃ number request decided,
    server.requests.get number = some request ∧ request.decided = some decided ∧
      call.1.key = decided.request.key ∧ call.1.limit = decided.request.limit

namespace Accounted

theorem start : AccessServer.start.Accounted where
  follows _ _ known := absurd known (Option.some_ne_none _).symm
  admitted _ _ _ := rfl
  served _ member := absurd member List.not_mem_nil

/-- One request moves on. -/
theorem follows_set (accounted : server.Accounted) {number : ℕ} {request : AccessRequest}
    (requests : server'.requests = server.requests.set number request)
    (moved : request.Follows) :
    ∀ other request', server'.requests.get other = some request' → request'.Follows := by
  intro other request' known
  rw [requests, OrderedMap.get_set] at known
  split at known
  · obtain rfl := Option.some.inj known
    exact moved
  · exact accounted.follows other request' known

/-- The requests that were charged stay so. -/
theorem served_set (accounted : server.Accounted) {number : ℕ} {request : AccessRequest}
    (requests : server'.requests = server.requests.set number request)
    (uncharged : ∀ before, server.requests.get number = some before → before.decided = none)
    {call : ConsumeCall × Bool} (member : call ∈ server.limiter.calls) :
    ∃ other request' decided, server'.requests.get other = some request' ∧
      request'.decided = some decided ∧ call.1.key = decided.request.key ∧
        call.1.limit = decided.request.limit := by
  obtain ⟨other, request', decided, known, charged, same⟩ := accounted.served call member
  refine ⟨other, request', decided, ?_, charged, same⟩
  rw [requests, OrderedMap.get_set, if_neg, known]
  rintro rfl
  rw [uncharged request' known] at charged
  cases charged

theorem not_admittedIn {request : AccessRequest} (undecided : request.decided = none)
    (budget : Budget) (earliest latest : ℤ) : ¬ request.AdmittedIn budget earliest latest := by
  rintro ⟨decided, member, -⟩
  rw [undecided] at member
  cases member

/-- A step that decides nothing. -/
theorem of_undecided (accounted : server.Accounted) {number : ℕ} {request : AccessRequest}
    (requests : server'.requests = server.requests.set number request)
    (limiter : server'.limiter = server.limiter) (moved : request.Follows)
    (uncharged : ∀ before, server.requests.get number = some before → before.decided = none)
    (quiet : ∀ budget earliest latest, ¬ request.AdmittedIn budget earliest latest) :
    server'.Accounted where
  follows := accounted.follows_set requests moved
  admitted limited earliest latest := by
    rw [limiter, ← accounted.admitted limited earliest latest, admittedIn, admittedIn, requests]
    cases known : server.requests.get number with
    | none => rw [OrderedMap.count_set_of_none _ known, if_neg (quiet _ _ _), add_zero]
    | some before =>
        have counted := OrderedMap.count_set_of_get
          (fun request => AccessRequest.AdmittedIn limited.budget earliest latest request) known
          request
        rwa [if_neg (quiet _ _ _), if_neg (not_admittedIn (uncharged before known) _ _ _), add_zero,
          add_zero] at counted
  served call member := accounted.served_set requests uncharged (limiter ▸ member)

/-- What the limiter decides is what it allows. -/
theorem decision_eq_ok_iff (limiter : LimiterState) (call : ConsumeCall) :
    (EliteHubVault.consume call limiter.redis).2 matches .ok _ ↔ limiter.allows call = true := by
  unfold EliteHubVault.consume ConsumeCall.decision LimiterState.allows
  dsimp only
  cases (call.eval (limiter.redis call.key)).2.allowed <;> simp

/-- A decision of the limiter. -/
theorem of_decided (accounted : server.Accounted) {number : ℕ} {request : AccessRequest}
    {limited : LimitedRequest} {rest : RateLimitDecision → Access} {now time : ℤ}
    {memberId : String} (known : server.requests.get number = some request)
    (access : request.access = .consume limited rest)
    (requests : server'.requests = server.requests.set number
      { request with
        decided := some ⟨limited, now, (EliteHubVault.consume (limited.call now memberId time)
          server.limiter.redis).2⟩
        access := rest (EliteHubVault.consume (limited.call now memberId time)
          server.limiter.redis).2 })
    (stepped : limiterNext server.limiter (limited.call now memberId time) =
      some server'.limiter) :
    server'.Accounted := by
  obtain ⟨undecided, passed, charged, rfl⟩ :=
    charged_of_follows (accounted.follows number request known) access
  have uncharged : ∀ before, server.requests.get number = some before → before.decided = none := by
    intro before same
    cases known.symm.trans same
    exact undecided
  refine ⟨accounted.follows_set requests (.decided rfl charged rfl),
    fun other earliest latest => ?_, fun call member => ?_⟩
  · have counted := OrderedMap.count_set_of_get
      (fun request => AccessRequest.AdmittedIn other.budget earliest latest request) known
      { request with
        decided := some ⟨limited, now, (EliteHubVault.consume (limited.call now memberId time)
          server.limiter.redis).2⟩
        access := respondWithRateLimitDecision passed
          (EliteHubVault.consume (limited.call now memberId time) server.limiter.redis).2 }
    rw [if_neg (not_admittedIn undecided _ _ _), add_zero] at counted
    rw [allowedIn_limiterNext stepped, ← accounted.admitted other earliest latest, admittedIn,
      admittedIn, requests, counted]
    refine congrArg _ (if_congr ?_ rfl rfl)
    simp only [AccessRequest.AdmittedIn, Option.mem_def, Option.some.injEq, exists_eq_left',
      decision_eq_ok_iff, LimitedRequest.call, key_eq_iff]
    tauto
  · rw [limiterNext_eq stepped] at member
    obtain earlier | new := List.mem_append.mp member
    · exact accounted.served_set requests uncharged earlier
    · rw [List.mem_singleton.mp new]
      exact ⟨number, _, _, by rw [requests, OrderedMap.get_set, if_pos rfl], rfl, rfl, rfl⟩

/-- **Every step keeps the accounts.** -/
theorem next (accounted : server.Accounted) {action : AccessAction}
    (taken : server.next action = some server') : server'.Accounted := by
  cases step_cases taken with
  | receive new requests limiter =>
      refine accounted.of_undecided requests limiter (.received rfl rfl rfl) (fun before same => ?_)
        (not_admittedIn rfl)
      rw [new] at same
      cases same
  | @resolved number request apiKey rest resolution known access requests limiter =>
      obtain ⟨undecided, begins⟩ :=
        resolves_of_follows (accounted.follows number request known) access
      refine accounted.of_undecided requests limiter (.resolved begins rfl undecided rfl)
        (fun before same => ?_) (not_admittedIn undecided)
      cases known.symm.trans same
      exact undecided
  | @decided number request limited rest now decision known access requests limiter =>
      obtain ⟨undecided, passed, charged, rfl⟩ :=
        charged_of_follows (accounted.follows number request known) access
      obtain ⟨limiter, rfl⟩ | ⟨memberId, time, stepped, rfl⟩ := limiter
      · refine accounted.of_undecided requests limiter (.decided rfl charged rfl)
          (fun before same => ?_) ?_
        · cases known.symm.trans same
          exact undecided
        · simp [AccessRequest.AdmittedIn]
      · exact accounted.of_decided known access requests stepped

end Accounted

theorem accounted_of_reaches (run : Reaches next (CallsInOrder skew) start server) :
    server.Accounted :=
  run.invariant .start fun _ _ _ accounted _ taken => accounted.next taken

/-- A step calls the limiter, or leaves it. -/
theorem limiter_of_next {action : AccessAction} (taken : server.next action = some server') :
    server'.limiter = server.limiter ∨
      ∃ (number : ℕ) (limited : LimitedRequest) (now : ℤ) (memberId : String) (time : ℤ),
        action = .consume number now memberId time ∧
          limiterNext server.limiter (limited.call now memberId time) = some server'.limiter := by
  cases action with
  | receive number ctx =>
      obtain ⟨-, same⟩ := Option.ite_none_right_eq_some.mp taken
      cases same
      exact .inl rfl
  | resolved number resolution =>
      obtain ⟨request, -, taken⟩ := Option.bind_eq_some_iff.mp taken
      cases access : request.access with
      | resolve apiKey andThen =>
          rw [access] at taken
          cases taken
          exact .inl rfl
      | done reply => simp [access] at taken
      | consume limited andThen => simp [access] at taken
  | consume number now memberId time =>
      obtain ⟨request, -, taken⟩ := Option.bind_eq_some_iff.mp taken
      cases access : request.access with
      | consume limited andThen =>
          rw [access] at taken
          obtain ⟨limiter, stepped, rfl⟩ := Option.map_eq_some_iff.mp taken
          exact .inr ⟨number, limited, now, memberId, time, rfl, stepped⟩
      | done reply => simp [access] at taken
      | resolve apiKey andThen => simp [access] at taken
  | reject number now =>
      obtain ⟨request, -, taken⟩ := Option.bind_eq_some_iff.mp taken
      cases access : request.access with
      | consume limited andThen =>
          rw [access] at taken
          cases taken
          exact .inl rfl
      | done reply => simp [access] at taken
      | resolve apiKey andThen => simp [access] at taken

/-- The calls of the limiter are a run of the limiter. -/
theorem reaches_limiter (run : Reaches next (CallsInOrder skew) start server) :
    Reaches limiterNext (InOrder skew) .start server.limiter := by
  refine run.simulate AccessServer.limiter fun server action server' inOrder taken => ?_
  obtain same | ⟨number, limited, now, memberId, time, rfl, stepped⟩ := limiter_of_next taken
  · rw [same]
    exact .start
  · exact Reaches.start.step (a := limited.call now memberId time) inOrder stepped

/-! ## The routes -/

/-- **What the middleware guarantees** in a state of a run: who is passed on and who is not. -/
structure RoutesExact (skew : ℤ) (server : AccessServer) : Prop where
  passedOn : ∀ number request headers answer, server.requests.get number = some request →
    request.access = .done ⟨headers, answer⟩ →
    request.ctx.path = "/graphql" ∨ request.ctx.path = "/realtime/sse" →
    (∀ status error message, answer ≠ .error status error message) →
    ∃ decided own, request.decided = some decided ∧ decided.decision = .ok own ∧
      headers = some own ∧ Charged request.ctx request.resolution decided.request answer
  admits : ∀ number request limited rest now memberId time server',
    server.requests.get number = some request → request.access = .consume limited rest →
    server.CallsInOrder skew (.consume number now memberId time) →
    server.next (.consume number now memberId time) = some server' →
    ∃ request' decided, server'.requests.get number = some request' ∧
      request'.decided = some decided ∧ decided.request = limited ∧
      (decided.decision matches .ok _ ↔
        server.admittedIn limited.budget (now - windowMs) now < limited.limit)
  window : ∀ (limited : LimitedRequest) limit, (∀ number request decided,
      server.requests.get number = some request → request.decided = some decided →
        decided.request.budget = limited.budget → decided.request.limit ≤ limit) →
    ∀ latest, server.admittedIn limited.budget (latest - windowMs) latest ≤ limit

/-- A request that was answered, and how. -/
theorem answered_of_follows {request : AccessRequest} (follows : request.Follows)
    {headers : Option RateLimitHeaders} {answer : Answer}
    (access : request.access = .done ⟨headers, answer⟩)
    (guarded : request.ctx.path = "/graphql" ∨ request.ctx.path = "/realtime/sse")
    (passes : ∀ status error message, answer ≠ .error status error message) :
    ∃ decided own, request.decided = some decided ∧ decided.decision = .ok own ∧
      headers = some own ∧ Charged request.ctx request.resolution decided.request answer := by
  have unsettled : ¬ IsSettled request.ctx (.done ⟨headers, answer⟩) := by
    rintro ⟨own, same, isError⟩
    cases same
    obtain ⟨status, error, message, rfl⟩ := isError guarded
    exact passes status error message rfl
  cases follows with
  | received unresolved undecided same =>
      have begins := begins_routeAccessMiddleware request.ctx
      rw [← same, access] at begins
      cases begins with
      | settled settled => exact absurd settled unsettled
  | @resolved earlier resolution begins known undecided same =>
      have first := begins_routeAccessMiddleware request.ctx
      rw [begins] at first
      cases first with
      | settled settled =>
          obtain ⟨answer, impossible, -⟩ := settled
          cases impossible
      | resolves resolves =>
          obtain ⟨limited, later, charged⟩ | settled := resolves.settled resolution
          · cases access.symm.trans (same.trans charged)
          · rw [← same, access] at settled
            exact absurd settled unsettled
  | @decided decided passed known charged same =>
      rw [access] at same
      cases decision : decided.decision with
      | ok own =>
          rw [decision] at same
          cases same
          exact ⟨decided, own, known, decision, rfl, charged⟩
      | rateLimited own =>
          rw [decision] at same
          cases same
          exact absurd rfl (passes _ _ _)
      | serviceUnavailable =>
          rw [decision] at same
          cases same
          exact absurd rfl (passes _ _ _)

/-- **Access to the routes is exact.** In every run of requests whose limiter is called in order,
a request to a guarded route is passed on only by its own budget, a budget admits a request
exactly when fewer requests than its limit were admitted to it in the last minute, and no minute
has more than the limit. -/
theorem route_access_exact (run : Reaches next (CallsInOrder skew) start server) :
    server.RoutesExact skew := by
  have accounted := accounted_of_reaches run
  have limiting := reaches_limiter run
  refine ⟨fun number request headers answer known access guarded passes =>
      answered_of_follows (accounted.follows number request known) access guarded passes,
    fun number request limited rest now memberId time server' known access inOrder taken => ?_,
    fun limited limit bounded latest => ?_⟩
  · obtain ⟨same, known', taken⟩ := Option.bind_eq_some_iff.mp taken
    obtain rfl := Option.some.inj (known.symm.trans known')
    rw [access] at taken
    obtain ⟨limiter, stepped, rfl⟩ := Option.map_eq_some_iff.mp taken
    have ordered : InOrder skew server.limiter (limited.call now memberId time) := inOrder
    refine ⟨_, _, by rw [OrderedMap.get_set, if_pos rfl], rfl, rfl, ?_⟩
    rw [Accounted.decision_eq_ok_iff, allows_iff (recorded_of_reaches limiting) ordered,
      accounted.admitted]
    rfl
  · rw [accounted.admitted]
    refine window_of_reaches limiting limited.key limit (fun served member here => ?_) latest
    obtain ⟨number, request, decided, known, charged, key, own⟩ := accounted.served served member
    rw [own]
    refine bounded number request decided known charged ?_
    rw [← key_eq_iff, ← key, here]

/-! ## Samples -/

/-- A request without an API key. -/
def sampleGet (ip : String) : RequestContext := ⟨"/graphql", "GET", ip, none⟩

/-- A key for one request in a minute. -/
def sampleConsumer : ApiKeyConsumer := ⟨"id", "public", "name", 1, 1⟩

/-- Two clients in turn: the second request with the key is too early. -/
theorem route_access_exact_sample : ∃ server : AccessServer,
    server.admittedIn (.authenticatedGraphql "id") 0 60000 = 1 ∧
      server.admittedIn (.anonymousGraphql "id") 0 60000 = 1 ∧ server.RoutesExact 0 := by
  obtain ⟨server, reached, observed⟩ := exists_reachable_of_execute
    (admitted next (CallsInOrder 0)) start
    [.receive 0 ⟨"/graphql", "POST", "id", some "eh_live_public_secret"⟩, .receive 1 (sampleGet "id"),
      .receive 2 ⟨"/graphql", "POST", "id", some "eh_live_public_secret"⟩,
      .resolved 2 (.ok (.apiKey sampleConsumer)), .resolved 0 (.ok (.apiKey sampleConsumer)),
      .consume 2 1 "a" 1, .consume 1 1 "b" 1, .consume 0 2 "c" 2]
    (fun server => server.admittedIn (.authenticatedGraphql "id") 0 60000 = 1 ∧
      server.admittedIn (.anonymousGraphql "id") 0 60000 = 1) (by decide +kernel)
  obtain ⟨withKey, anonymous⟩ := of_decide_eq_true observed
  exact ⟨server, withKey, anonymous, route_access_exact (.of_admitted reached)⟩

end AccessServer

end EliteHubVault
