import EliteHubVault.Auth.ApiKeyResolver
import EliteHubVault.Auth.ApiRateLimiter

/-!
# Access to the routes

A request for GraphQL or for a realtime connection goes through the middleware of its route: its
API key is resolved, one of four budgets is charged, and the request is passed on or answered.
`Access` is what is left of the middleware of a request; it goes on when the key is resolved or
the rate limiter has decided. Requests are interleaved at these two awaits.

A request is passed on only when its own budget admits it, and a budget counts the requests of
one client and one route only: whatever the other clients do, it admits a request exactly when
fewer requests than its limit were admitted to it in the last minute (`route_access_exact`).
-/

set_option autoImplicit false

namespace EliteHubVault

open Library

/-! ## The middleware -/

/-- What the middleware reads of a request. -/
structure RequestContext where
  path : String
  method : String
  ip : String
  apiKey : Option String
deriving DecidableEq

/-- What the middleware does in the end. `next` calls the middleware after it, and may answer
for it when it throws. -/
inductive Answer where
  | next (catches : Bool)
  | openRealtimeSseConnection (apiKey : ApiKeyConsumer)
  | healthy
  | error (status : ℕ) (error message : String)
deriving DecidableEq

/-- The answer, with the rate-limit headers that were set. -/
structure Reply where
  headers : Option RateLimitHeaders
  answer : Answer
deriving DecidableEq

/-- The rest of a middleware: it is done, or awaits the resolver or the rate limiter. -/
inductive Access where
  | done (reply : Reply)
  | resolve (apiKey : Option String) (andThen : ApiConsumerResolution → Access)
  | consume (request : LimitedRequest) (andThen : RateLimitDecision → Access)

def respondWithRateLimitError : Answer :=
  .error 429 "rate_limit_exceeded" "Rate limit exceeded. Please try again later."

def respondWithServiceUnavailable : Answer :=
  .error 503 "service_unavailable" "The API is temporarily unavailable. Please try again later."

def respondWithInvalidApiKey (ctx : RequestContext) : Access :=
  .consume (.invalidApiKeyAttempt ctx.ip) fun
    | .serviceUnavailable => .done ⟨none, respondWithServiceUnavailable⟩
    | .rateLimited headers => .done ⟨some headers, respondWithRateLimitError⟩
    | .ok headers =>
        .done ⟨some headers, .error 401 "Unauthorized" "Invalid or inactive API key"⟩

def resolveApiConsumer (ctx : RequestContext) (andThen : ApiConsumer → Access) : Access :=
  .resolve ctx.apiKey fun
    | .serviceUnavailable => .done ⟨none, respondWithServiceUnavailable⟩
    | .invalidApiKey => respondWithInvalidApiKey ctx
    | .ok consumer => andThen consumer

def requireApiKey (ctx : RequestContext) (andThen : ApiKeyConsumer → Access) : Access :=
  resolveApiConsumer ctx fun
    | .anonymous => .done ⟨none, .error 401 "Unauthorized" "API key is required"⟩
    | .apiKey consumer => andThen consumer

/-- The request is passed on, or answered. -/
def respondWithRateLimitDecision (passed : Answer) : RateLimitDecision → Access
  | .ok headers => .done ⟨some headers, passed⟩
  | .serviceUnavailable => .done ⟨none, respondWithServiceUnavailable⟩
  | .rateLimited headers => .done ⟨some headers, respondWithRateLimitError⟩

/-- The limit of a key without requests is none: a limit below zero admits nothing either. -/
def authenticatedGraphql (consumer : ApiKeyConsumer) : LimitedRequest :=
  .authenticatedGraphql consumer.apiKeyId consumer.rpmLimit.toNat

def healthcheckRoute (ctx : RequestContext) : Access :=
  if ctx.path ≠ "/healthcheck" then .done ⟨none, .next false⟩
  else if ctx.method ≠ "GET" then
    .done ⟨none, .error 405 "Method Not Allowed" "Use GET for healthcheck"⟩
  else .done ⟨none, .healthy⟩

/-- The decision on a POST request. -/
def consumeGraphql (ctx : RequestContext) : ApiConsumer → Access
  | .apiKey consumer =>
      .consume (authenticatedGraphql consumer) (respondWithRateLimitDecision (.next true))
  | .anonymous => .consume (.anonymousGraphql ctx.ip) (respondWithRateLimitDecision (.next true))

def graphqlRoute (ctx : RequestContext) : Access :=
  if ctx.path ≠ "/graphql" then .done ⟨none, .next false⟩
  else if ctx.method = "GET" then
    .consume (.anonymousGraphql ctx.ip) (respondWithRateLimitDecision (.next false))
  else if ctx.method = "POST" then resolveApiConsumer ctx (consumeGraphql ctx)
  else .done ⟨none, .error 405 "Method Not Allowed" "Use GET or POST for GraphQL"⟩

def sseRoute (ctx : RequestContext) : Access :=
  if ctx.path ≠ "/realtime/sse" then .done ⟨none, .next false⟩
  else if ctx.method ≠ "GET" then
    .done ⟨none, .error 405 "Method Not Allowed" "Use GET for SSE subscriptions"⟩
  else
    requireApiKey ctx fun authorizedApiKey =>
      .consume (.sseConnect authorizedApiKey.apiKeyId)
        (respondWithRateLimitDecision (.openRealtimeSseConnection authorizedApiKey))

def routeAccessMiddleware (ctx : RequestContext) : Access :=
  if ctx.path = "/healthcheck" then healthcheckRoute ctx
  else if ctx.path = "/graphql" then graphqlRoute ctx
  else if ctx.path = "/realtime/sse" then sseRoute ctx
  else .done ⟨none, .next false⟩

/-! ## Budgets -/

/-- What the limiter counts together. -/
inductive Budget where
  | anonymousGraphql (ipAddress : String)
  | authenticatedGraphql (apiKeyId : String)
  | invalidApiKeyAttempt (ipAddress : String)
  | sseConnect (apiKeyId : String)
deriving DecidableEq

def LimitedRequest.budget : LimitedRequest → Budget
  | .anonymousGraphql ipAddress => .anonymousGraphql ipAddress
  | .authenticatedGraphql apiKeyId _ => .authenticatedGraphql apiKeyId
  | .invalidApiKeyAttempt ipAddress => .invalidApiKeyAttempt ipAddress
  | .sseConnect apiKeyId => .sseConnect apiKeyId

/-- No two budgets share a key of Redis, whatever addresses and ids look like. -/
theorem key_eq_iff (request other : LimitedRequest) :
    request.key = other.key ↔ request.budget = other.budget := by
  rw [← String.toList_inj]
  cases request <;> cases other <;>
    simp [LimitedRequest.key, LimitedRequest.budget, String.toList_append, String.toList_inj]

/-- **The budget of a request**, and the answer that it gets when the budget admits it. The
resolution is that of its API key, if the route asks for it. -/
inductive Charged (ctx : RequestContext) :
    Option ApiConsumerResolution → LimitedRequest → Answer → Prop where
  | get (path : ctx.path = "/graphql") (method : ctx.method = "GET") :
      Charged ctx none (.anonymousGraphql ctx.ip) (.next false)
  | post (path : ctx.path = "/graphql") (method : ctx.method = "POST") :
      Charged ctx (some (.ok .anonymous)) (.anonymousGraphql ctx.ip) (.next true)
  | postWithKey (path : ctx.path = "/graphql") (method : ctx.method = "POST")
      (consumer : ApiKeyConsumer) :
      Charged ctx (some (.ok (.apiKey consumer))) (authenticatedGraphql consumer) (.next true)
  | sse (path : ctx.path = "/realtime/sse") (method : ctx.method = "GET")
      (consumer : ApiKeyConsumer) :
      Charged ctx (some (.ok (.apiKey consumer))) (.sseConnect consumer.apiKeyId)
        (.openRealtimeSseConnection consumer)
  | invalid (path : ctx.path = "/graphql" ∧ ctx.method = "POST" ∨
      ctx.path = "/realtime/sse" ∧ ctx.method = "GET") :
      Charged ctx (some .invalidApiKey) (.invalidApiKeyAttempt ctx.ip)
        (.error 401 "Unauthorized" "Invalid or inactive API key")

/-- The rest of a request that is charged. -/
def IsCharged (ctx : RequestContext) (resolution : Option ApiConsumerResolution)
    (request : LimitedRequest) (andThen : RateLimitDecision → Access) : Prop :=
  ∃ passed, Charged ctx resolution request passed ∧ andThen = respondWithRateLimitDecision passed

/-- A request for another route, or with another method, is answered at once. -/
def IsSettled (ctx : RequestContext) (access : Access) : Prop :=
  ∃ answer, access = .done ⟨none, answer⟩ ∧
    (ctx.path = "/graphql" ∨ ctx.path = "/realtime/sse" →
      ∃ status error message, answer = .error status error message)

theorem respondWithInvalidApiKey_eq (ctx : RequestContext) : respondWithInvalidApiKey ctx =
    .consume (.invalidApiKeyAttempt ctx.ip) (respondWithRateLimitDecision
      (.error 401 "Unauthorized" "Invalid or inactive API key")) := by
  refine congrArg (Access.consume _) (funext fun decision => ?_)
  cases decision <;> rfl

/-- What the middleware does with a resolution. -/
structure Resolves (ctx : RequestContext) (andThen : ApiConsumerResolution → Access) : Prop where
  charged : ∀ resolution request rest, andThen resolution = .consume request rest →
    IsCharged ctx (some resolution) request rest
  settled : ∀ resolution, (∃ request rest, andThen resolution = .consume request rest) ∨
    IsSettled ctx (andThen resolution)

theorem IsSettled.error (ctx : RequestContext) (status : ℕ) (error message : String) :
    IsSettled ctx (.done ⟨none, .error status error message⟩) :=
  ⟨_, rfl, fun _ => ⟨status, error, message, rfl⟩⟩

/-- **What the middleware does first.** -/
inductive Begins (ctx : RequestContext) : Access → Prop where
  | settled {access : Access} (settled : IsSettled ctx access) : Begins ctx access
  | charged {request : LimitedRequest} {rest : RateLimitDecision → Access}
      (charged : IsCharged ctx none request rest) : Begins ctx (.consume request rest)
  | resolves {rest : ApiConsumerResolution → Access} (resolves : Resolves ctx rest) :
      Begins ctx (.resolve ctx.apiKey rest)

/-- A request whose key is resolved first, by the consumer. -/
theorem begins_resolveApiConsumer {ctx : RequestContext} {andThen : ApiConsumer → Access}
    (path : ctx.path = "/graphql" ∧ ctx.method = "POST" ∨
      ctx.path = "/realtime/sse" ∧ ctx.method = "GET")
    (passes : ∀ consumer, (∃ request passed,
        Charged ctx (some (.ok consumer)) request passed ∧
          andThen consumer = .consume request (respondWithRateLimitDecision passed)) ∨
      IsSettled ctx (andThen consumer)) :
    Begins ctx (resolveApiConsumer ctx andThen) := by
  refine .resolves ⟨fun resolution request rest charged => ?_, fun resolution => ?_⟩
  · cases resolution with
    | serviceUnavailable => cases charged
    | invalidApiKey =>
        rw [respondWithInvalidApiKey_eq] at charged
        cases charged
        exact ⟨_, .invalid path, rfl⟩
    | ok consumer =>
        obtain ⟨own, passed, isCharged, same⟩ | ⟨answer, same, -⟩ := passes consumer
        · cases charged.symm.trans same
          exact ⟨passed, isCharged, rfl⟩
        · cases charged.symm.trans same
  · cases resolution with
    | serviceUnavailable => exact .inr (.error ctx _ _ _)
    | invalidApiKey => exact .inl ⟨_, _, respondWithInvalidApiKey_eq ctx⟩
    | ok consumer =>
        obtain ⟨own, passed, -, same⟩ | settled := passes consumer
        · exact .inl ⟨own, _, same⟩
        · exact .inr settled

theorem begins_routeAccessMiddleware (ctx : RequestContext) :
    Begins ctx (routeAccessMiddleware ctx) := by
  unfold routeAccessMiddleware
  split
  · rename_i path
    have other : ¬ (ctx.path = "/graphql" ∨ ctx.path = "/realtime/sse") := by
      rw [path]
      decide
    unfold healthcheckRoute
    rw [if_neg (not_not.mpr path)]
    split
    · exact .settled (.error ctx _ _ _)
    · exact .settled ⟨_, rfl, fun guarded => absurd guarded other⟩
  split
  · rename_i path
    unfold graphqlRoute
    rw [if_neg (not_not.mpr path)]
    split
    · rename_i method
      exact .charged ⟨_, .get path method, rfl⟩
    split
    · rename_i method
      refine begins_resolveApiConsumer (.inl ⟨path, method⟩) fun consumer => ?_
      cases consumer with
      | anonymous => exact .inl ⟨_, _, .post path method, rfl⟩
      | apiKey consumer => exact .inl ⟨_, _, .postWithKey path method consumer, rfl⟩
    · exact .settled (.error ctx _ _ _)
  split
  · rename_i path
    unfold sseRoute
    rw [if_neg (not_not.mpr path)]
    split
    · exact .settled (.error ctx _ _ _)
    · rename_i method
      have method := not_not.mp method
      refine begins_resolveApiConsumer (.inr ⟨path, method⟩) fun consumer => ?_
      cases consumer with
      | anonymous => exact .inr (.error ctx _ _ _)
      | apiKey consumer => exact .inl ⟨_, _, .sse path method consumer, rfl⟩
  · rename_i health graphql sse
    exact .settled ⟨_, rfl, fun guarded => absurd guarded (not_or.mpr ⟨graphql, sse⟩)⟩

end EliteHubVault
