import EliteHubVault.Library.Runs
import EliteHubVault.Library.SortedSets

/-!
# The sliding-window rate limiter

A call is a member of its key's sorted set, with the time of the call as its score. The script
removes the members that have left the window, and adds the call if there is room. So a call is
allowed exactly when fewer than `limit` allowed calls lie in the window that ends with it
(`sliding_window_exact`).
-/

set_option autoImplicit false

namespace EliteHubVault

open Library

/-! ## The limiter -/

def anonymousGraphqlRequestsPerMinute : ℕ := 30
def invalidApiKeyAttemptsPerMinute : ℕ := 20
def sseConnectAttemptsPerMinute : ℕ := 20
def windowSeconds : ℤ := 60
def windowMs : ℤ := windowSeconds * 1000
def keyTtlSeconds : ℤ := windowSeconds + 5

structure RateLimitHeaders where
  limit : ℕ
  remaining : ℕ
  reset : ℤ
  retryAfter : Option ℤ
deriving DecidableEq

inductive RateLimitDecision where
  | ok (headers : RateLimitHeaders)
  | rateLimited (headers : RateLimitHeaders)
  | serviceUnavailable
deriving DecidableEq

structure SlidingWindowResult where
  allowed : Bool
  count : ℕ
  oldestTimestampMs : ℤ

/-- `SLIDING_WINDOW_SCRIPT`, at a time of the server's clock in milliseconds. -/
def slidingWindowScript (time windowStart now : ℤ) (limit : ℕ) (member : String)
    (ttlSeconds : ℤ) (set : SortedSet String) : SortedSet String × SlidingWindowResult :=
  let set := (set.live time).zremrangebyscore windowStart
  let count := set.zcard
  if limit ≤ count then
    (set, { allowed := false, count, oldestTimestampMs := set.zrangeFirstScore.getD now })
  else
    let set := (set.zadd member now).expire (time + ttlSeconds * 1000)
    (set, { allowed := true, count := count + 1,
            oldestTimestampMs := set.zrangeFirstScore.getD now })

/-- `Math.ceil(ms / 1000)`. -/
def ceilSeconds (ms : ℤ) : ℤ := -(-ms / 1000)

def toHeaders (slidingWindowResult : SlidingWindowResult) (limit : ℕ) (now : ℤ)
    (includeRetryAfter : Bool) : RateLimitHeaders :=
  let resetAtMs := slidingWindowResult.oldestTimestampMs + windowMs
  let msBeforeReset := max (resetAtMs - now) 0
  { limit
    remaining := if slidingWindowResult.allowed then limit - slidingWindowResult.count else 0
    reset := ceilSeconds resetAtMs
    retryAfter := if includeRetryAfter then some (max 1 (ceilSeconds msBeforeReset)) else none }

/-- One call of `consume`, with the time that it reads and the time of the server at which its
script runs. -/
structure ConsumeCall where
  key : String
  limit : ℕ
  now : ℤ
  memberId : String
  time : ℤ
deriving DecidableEq

/-- The member of a call. -/
def ConsumeCall.member (call : ConsumeCall) : String :=
  toString call.now ++ ":" ++ call.memberId

/-- The decision for the result of the script; `none` stands for a Redis that fails. -/
def ConsumeCall.decision (call : ConsumeCall) : Option SlidingWindowResult → RateLimitDecision
  | none => .serviceUnavailable
  | some result =>
      if result.allowed then .ok (toHeaders result call.limit call.now false)
      else .rateLimited (toHeaders result call.limit call.now true)

/-- The script as `consume` runs it. -/
def ConsumeCall.eval (call : ConsumeCall) (set : SortedSet String) :
    SortedSet String × SlidingWindowResult :=
  slidingWindowScript call.time (call.now - windowMs) call.now call.limit call.member
    keyTtlSeconds set

/-- `consume`, while Redis works. -/
def consume (call : ConsumeCall) (redis : String → SortedSet String) :
    (String → SortedSet String) × RateLimitDecision :=
  (Function.update redis call.key (call.eval (redis call.key)).1,
    call.decision (some (call.eval (redis call.key)).2))

/-- The key and the limit of the public methods. -/
inductive LimitedRequest where
  | anonymousGraphql (ipAddress : String)
  | authenticatedGraphql (apiKeyId : String) (limit : ℕ)
  | invalidApiKeyAttempt (ipAddress : String)
  | sseConnect (apiKeyId : String)

def LimitedRequest.key : LimitedRequest → String
  | .anonymousGraphql ipAddress => "graphql:anon:" ++ ipAddress
  | .authenticatedGraphql apiKeyId _ => "graphql:key:" ++ apiKeyId
  | .invalidApiKeyAttempt ipAddress => "auth:invalid:" ++ ipAddress
  | .sseConnect apiKeyId => "sse:connect:" ++ apiKeyId

def LimitedRequest.limit : LimitedRequest → ℕ
  | .anonymousGraphql _ => anonymousGraphqlRequestsPerMinute
  | .authenticatedGraphql _ limit => limit
  | .invalidApiKeyAttempt _ => invalidApiKeyAttemptsPerMinute
  | .sseConnect _ => sseConnectAttemptsPerMinute

/-! ## Runs -/

/-- The store, and the calls so far with whether they were allowed. -/
structure LimiterState where
  redis : String → SortedSet String
  calls : List (ConsumeCall × Bool)

def LimiterState.start : LimiterState := ⟨fun _ => .empty, []⟩

/-- Whether a call is allowed. -/
def LimiterState.allows (s : LimiterState) (call : ConsumeCall) : Bool :=
  (call.eval (s.redis call.key)).2.allowed

def limiterNext (s : LimiterState) (call : ConsumeCall) : Option LimiterState :=
  some { redis := (consume call s.redis).1, calls := s.calls ++ [(call, s.allows call)] }

/-- Calls come in the order of their times with new member ids. The clock of the server runs
with the callers': it is ahead by `skew`, give or take the time by which a key outlives the
window. -/
def InOrder (skew : ℤ) (s : LimiterState) (call : ConsumeCall) : Prop :=
  (∀ earlier ∈ s.calls, earlier.1.now ≤ call.now) ∧
    (∀ earlier ∈ s.calls, earlier.1.memberId ≠ call.memberId) ∧
    call.now + skew ≤ call.time ∧
    call.time ≤ call.now + skew + (keyTtlSeconds * 1000 - windowMs)

instance (skew : ℤ) (s : LimiterState) (call : ConsumeCall) : Decidable (InOrder skew s call) :=
  inferInstanceAs (Decidable (_ ∧ _))

/-- The allowed calls on a key. -/
def LimiterState.allowedCalls (s : LimiterState) (key : String) : List ConsumeCall :=
  (s.calls.filter fun entry => entry.2 ∧ entry.1.key = key).map Prod.fst

/-- The number of allowed calls on a key at times after `earliest` up to `latest`. -/
def LimiterState.allowedIn (s : LimiterState) (key : String) (earliest latest : ℤ) : ℕ :=
  (s.allowedCalls key).countP fun call => earliest < call.now ∧ call.now ≤ latest

/-! ## The member of a call -/

theorem colon_not_mem_toString (n : ℤ) : ':' ∉ (toString n).toList := by
  have digits : ∀ m : ℕ, ':' ∉ m.repr.toList := fun m member => by
    have digit := Nat.isDigit_of_mem_toDigits (by decide) (by decide)
      (by simpa [Nat.repr] using member : ':' ∈ Nat.toDigits 10 m)
    exact absurd digit (by decide)
  rw [Int.toString_eq_repr]
  cases n with
  | ofNat m => exact digits m
  | negSucc m =>
      intro member
      rw [Int.repr, String.toList_append, List.mem_append] at member
      rcases member with sign | member
      · exact absurd sign (by decide)
      · exact digits (m + 1) member

theorem suffix_eq_of_separator {α : Type} {separator : α} {first first' rest rest' : List α}
    (absent : separator ∉ first) (absent' : separator ∉ first')
    (same : first ++ separator :: rest = first' ++ separator :: rest') : rest = rest' := by
  induction first generalizing first' with
  | nil =>
      cases first' with
      | nil => exact (List.cons.inj same).2
      | cons head tail =>
          exact absurd (List.cons.inj same).1 fun here => absent' (here ▸ List.mem_cons_self)
  | cons head tail ih =>
      cases first' with
      | nil => exact absurd (List.cons.inj same).1 fun here => absent (here ▸ List.mem_cons_self)
      | cons head' tail' =>
          exact ih (fun later => absent (List.mem_cons_of_mem _ later))
            (fun later => absent' (List.mem_cons_of_mem _ later)) (List.cons.inj same).2

/-- Calls with different ids are different members. -/
theorem memberId_of_member {call call' : ConsumeCall} (same : call.member = call'.member) :
    call.memberId = call'.memberId := by
  have lists := congrArg String.toList same
  simp only [ConsumeCall.member, String.toList_append, List.append_assoc] at lists
  exact String.toList_inj.mp (suffix_eq_of_separator (colon_not_mem_toString call.now)
    (colon_not_mem_toString call'.now) lists)

/-! ## The set of a key and its allowed calls -/

/-- How far the deadline of a key is ahead of the times of its calls. -/
def keyLead (skew : ℤ) : ℤ := skew + keyTtlSeconds * 1000

/-- Each set holds the allowed calls of its key, but for those that have left the window. -/
def Recorded (skew : ℤ) (s : LimiterState) : Prop :=
  ∀ key, ∃ log : OrderedMap String ℤ,
    log.entries = (s.allowedCalls key).map (fun call => (call.member, call.now)) ∧
      ∀ now, (∀ earlier ∈ s.calls, earlier.1.now ≤ now) →
        SortedSet.Tracks (keyLead skew) (now - windowMs) log (s.redis key)

theorem mem_allowedCalls {s : LimiterState} {key : String} {call : ConsumeCall} :
    call ∈ s.allowedCalls key ↔ (call, true) ∈ s.calls ∧ call.key = key := by
  simp only [LimiterState.allowedCalls, List.mem_map, List.mem_filter, decide_eq_true_eq]
  constructor
  · rintro ⟨⟨call, allowed⟩, ⟨member, rfl, rfl⟩, rfl⟩
    exact ⟨member, rfl⟩
  · rintro ⟨member, rfl⟩
    exact ⟨(call, true), ⟨member, rfl, rfl⟩, rfl⟩

/-- The members above the bound of a call are the allowed calls in its window. -/
theorem size_keepAbove {s : LimiterState} {key : String} {log : OrderedMap String ℤ} {now : ℤ}
    (entries : log.entries = (s.allowedCalls key).map fun call => (call.member, call.now))
    (ordered : ∀ earlier ∈ s.calls, earlier.1.now ≤ now) (earliest : ℤ) :
    (log.keepAbove earliest).size = s.allowedIn key earliest now := by
  rw [OrderedMap.size_keepAbove, entries, List.countP_map, LimiterState.allowedIn]
  refine List.countP_congr fun call member => ?_
  simp [ordered _ (mem_allowedCalls.mp member).1]

section Step

variable {skew : ℤ} {s s' : LimiterState} {call : ConsumeCall}

/-- What the script finds when it has removed what left the window. -/
def LimiterState.found (s : LimiterState) (call : ConsumeCall) : SortedSet String :=
  ((s.redis call.key).live call.time).zremrangebyscore (call.now - windowMs)

theorem allows_iff_found : s.allows call = true ↔ (s.found call).zcard < call.limit := by
  simp only [LimiterState.allows, ConsumeCall.eval, slidingWindowScript, LimiterState.found]
  split
  · rename_i full
    simpa using full
  · rename_i room
    simpa using room

theorem eval_of_denied (denied : s.allows call = false) :
    (call.eval (s.redis call.key)).1 = s.found call := by
  have full : call.limit ≤ (s.found call).zcard :=
    not_lt.mp fun room => by simp [allows_iff_found.mpr room] at denied
  unfold ConsumeCall.eval slidingWindowScript
  exact congrArg Prod.fst (if_pos full)

theorem eval_of_allowed (allowed : s.allows call = true) : (call.eval (s.redis call.key)).1 =
    ((s.found call).zadd call.member call.now).expire (call.time + keyTtlSeconds * 1000) := by
  have room : ¬ call.limit ≤ (s.found call).zcard := not_le.mpr (allows_iff_found.mp allowed)
  unfold ConsumeCall.eval slidingWindowScript
  exact congrArg Prod.fst (if_neg room)

/-- **The set that the script finds**: the allowed calls in the window of the call. The time to
live of the key makes no difference. -/
theorem found_of_recorded (recorded : Recorded skew s) (inOrder : InOrder skew s call) :
    ∃ log : OrderedMap String ℤ,
      log.entries = (s.allowedCalls call.key).map (fun call => (call.member, call.now)) ∧
      SortedSet.Tracks (keyLead skew) (call.now - windowMs) log (s.found call) ∧
      (s.found call).scores = log.keepAbove (call.now - windowMs) ∧
      ((s.redis call.key).zremrangebyscore (call.now - windowMs)).scores =
        log.keepAbove (call.now - windowMs) := by
  obtain ⟨ordered, -, -, soon⟩ := inOrder
  obtain ⟨log, entries, tracks⟩ := recorded call.key
  have lead : call.time ≤ call.now - windowMs + keyLead skew := by
    unfold keyLead
    omega
  obtain ⟨found, scores, unexpired⟩ := (tracks call.now ordered).evict lead
  exact ⟨log, entries, found, scores, unexpired⟩

/-- **A call is allowed exactly when there is room in the window that ends with it.** -/
theorem allows_iff (recorded : Recorded skew s) (inOrder : InOrder skew s call) :
    s.allows call = true ↔ s.allowedIn call.key (call.now - windowMs) call.now < call.limit := by
  obtain ⟨log, entries, -, scores, -⟩ := found_of_recorded recorded inOrder
  rw [allows_iff_found, SortedSet.zcard, scores, size_keepAbove entries inOrder.1]

theorem limiterNext_eq (taken : limiterNext s call = some s') :
    s' = { redis := (consume call s.redis).1, calls := s.calls ++ [(call, s.allows call)] } :=
  (Option.some.inj taken).symm

theorem allowedCalls_limiterNext (taken : limiterNext s call = some s') (key : String) :
    s'.allowedCalls key = s.allowedCalls key ++
      if s.allows call = true ∧ call.key = key then [call] else [] := by
  rw [limiterNext_eq taken, LimiterState.allowedCalls, List.filter_append, List.map_append]
  refine congrArg (s.allowedCalls key ++ ·) ?_
  by_cases counted : s.allows call = true ∧ call.key = key <;> simp [counted]

/-- The first statement of the run: a call keeps the sets as they are recorded. -/
theorem recorded_limiterNext (recorded : Recorded skew s) (inOrder : InOrder skew s call)
    (taken : limiterNext s call = some s') : Recorded skew s' := by
  intro key
  have calls := allowedCalls_limiterNext taken key
  have later : ∀ now, (∀ earlier ∈ s'.calls, earlier.1.now ≤ now) →
      call.now ≤ now ∧ ∀ earlier ∈ s.calls, earlier.1.now ≤ now := by
    intro now ordered
    rw [limiterNext_eq taken] at ordered
    exact ⟨ordered (call, s.allows call) (List.mem_append_right _ (List.mem_singleton_self _)),
      fun earlier member => ordered earlier (List.mem_append_left _ member)⟩
  by_cases here : call.key = key
  · subst here
    obtain ⟨log, entries, tracks, scores, -⟩ := found_of_recorded recorded inOrder
    have stored : s'.redis call.key = (call.eval (s.redis call.key)).1 := by
      rw [limiterNext_eq taken]
      exact Function.update_self ..
    cases allowed : s.allows call with
    | false =>
        refine ⟨log, by simp [calls, allowed, entries], fun now ordered => ?_⟩
        rw [stored, eval_of_denied allowed]
        exact tracks.mono le_rfl (by have := (later now ordered).1; omega)
    | true =>
        have new : call.member ∉ log.keys := by
          rw [OrderedMap.keys, entries, List.map_map]
          intro member
          obtain ⟨earlier, inCalls, same⟩ := List.mem_map.mp member
          exact inOrder.2.1 _ (mem_allowedCalls.mp inCalls).1 (memberId_of_member same)
        have latest : ∀ entry ∈ (s.found call).scores.entries, entry.2 ≤ call.now := by
          intro entry member
          rw [scores] at member
          have inLog := (OrderedMap.mem_keepAbove.mp member).1
          rw [entries] at inLog
          obtain ⟨earlier, inCalls, rfl⟩ := List.mem_map.mp inLog
          exact inOrder.1 _ (mem_allowedCalls.mp inCalls).1
        refine ⟨log.set call.member call.now, ?_, fun now ordered => ?_⟩
        · rw [OrderedMap.entries_set_of_new _ new, entries, calls, if_pos ⟨allowed, rfl⟩,
            List.map_append, List.map_singleton]
        · rw [stored, eval_of_allowed allowed]
          have window : (0 : ℤ) < windowMs := by decide
          refine (SortedSet.Tracks.of_zadd scores (by omega) (fun old known => ?_) latest ?_).mono
            le_rfl (by have := (later now ordered).1; omega)
          · rw [OrderedMap.get_eq_none_iff.mpr new] at known
            cases known
          · have ahead := inOrder.2.2.1
            unfold keyLead
            omega
  · obtain ⟨log, entries, tracks⟩ := recorded key
    refine ⟨log, by simp [calls, here, entries], fun now ordered => ?_⟩
    have stored : s'.redis key = s.redis key := by
      rw [limiterNext_eq taken]
      exact Function.update_of_ne (Ne.symm here) ..
    rw [stored]
    exact tracks now (later now ordered).2

theorem allowedIn_limiterNext (taken : limiterNext s call = some s') (key : String)
    (earliest latest : ℤ) : s'.allowedIn key earliest latest = s.allowedIn key earliest latest +
      if s.allows call = true ∧ call.key = key ∧ earliest < call.now ∧ call.now ≤ latest
        then 1 else 0 := by
  rw [LimiterState.allowedIn, allowedCalls_limiterNext taken, List.countP_append]
  refine congrArg (s.allowedIn key earliest latest + ·) ?_
  by_cases counted : s.allows call = true ∧ call.key = key
  · simp [counted]
  · rw [if_neg counted, if_neg fun counts => counted ⟨counts.1, counts.2.1⟩]
    rfl

/-- A window that holds the new call holds no earlier one that the window of the call does not. -/
theorem allowedIn_le (ordered : ∀ earlier ∈ s.calls, earlier.1.now ≤ call.now) {latest : ℤ}
    (within : call.now ≤ latest) (key : String) :
    s.allowedIn key (latest - windowMs) latest ≤
      s.allowedIn key (call.now - windowMs) call.now := by
  refine List.countP_mono_left fun earlier member counted => ?_
  have before := ordered _ (mem_allowedCalls.mp member).1
  simp only [decide_eq_true_eq] at counted before ⊢
  omega

end Step

/-! ## Whole runs -/

/-- What the limiter guarantees in a state of a run. -/
structure ExactWindow (skew : ℤ) (s : LimiterState) : Prop where
  decides : ∀ call, ∃ headers, (consume call s.redis).2 =
    if s.allows call then .ok headers else .rateLimited headers
  allows_iff : ∀ call, InOrder skew s call → (s.allows call = true ↔
    s.allowedIn call.key (call.now - windowMs) call.now < call.limit)
  window : ∀ key limit, (∀ served ∈ s.calls, served.1.key = key → served.1.limit ≤ limit) →
    ∀ latest, s.allowedIn key (latest - windowMs) latest ≤ limit
  without : ∀ first second s', InOrder skew s first → limiterNext s first = some s' →
    InOrder skew s second → InOrder skew s' second →
      s.allows first = false ∨ first.key ≠ second.key → s'.allows second = s.allows second
  expiry : ∀ call, InOrder skew s call → (s.found call).scores =
    ((s.redis call.key).zremrangebyscore (call.now - windowMs)).scores

variable {skew : ℤ} {s : LimiterState}

theorem recorded_of_reaches (run : Reaches limiterNext (InOrder skew) .start s) :
    Recorded skew s :=
  run.invariant (fun _ => ⟨.empty, rfl, fun _ _ => .empty⟩)
    fun _ _ _ recorded inOrder taken => recorded_limiterNext recorded inOrder taken

/-- Every window holds at most `limit` allowed calls on a key. -/
theorem window_of_reaches (run : Reaches limiterNext (InOrder skew) .start s) (key : String)
    (limit : ℕ) (limited : ∀ served ∈ s.calls, served.1.key = key → served.1.limit ≤ limit)
    (latest : ℤ) : s.allowedIn key (latest - windowMs) latest ≤ limit := by
  induction run with
  | start => exact Nat.zero_le _
  | @step before after call run inOrder taken ih =>
      have calls := congrArg LimiterState.calls (limiterNext_eq taken)
      have earlier : ∀ served ∈ before.calls, served.1.key = key → served.1.limit ≤ limit :=
        fun served member => limited served (calls ▸ List.mem_append_left _ member)
      rw [allowedIn_limiterNext taken]
      split
      · rename_i counted
        obtain ⟨allowed, here, -, within⟩ := counted
        have room := (allows_iff (recorded_of_reaches run) inOrder).mp allowed
        have fewer := allowedIn_le inOrder.1 within key
        have own : call.limit ≤ limit := limited (call, before.allows call)
          (calls ▸ List.mem_append_right _ (List.mem_singleton_self _)) here
        rw [here] at room
        omega
      · exact ih earlier

/-- **The sliding window is exact** in every run. -/
theorem sliding_window_exact (run : Reaches limiterNext (InOrder skew) .start s) :
    ExactWindow skew s := by
  have recorded := recorded_of_reaches run
  refine ⟨fun call => ?_, fun call inOrder => allows_iff recorded inOrder, window_of_reaches run,
    ?_, ?_⟩
  · cases allowed : s.allows call with
    | true => exact ⟨_, if_pos allowed⟩
    | false => exact ⟨_, if_neg (Bool.eq_false_iff.mp allowed)⟩
  · intro first second s' inOrder taken direct after unrelated
    have same : s'.allowedIn second.key (second.now - windowMs) second.now =
        s.allowedIn second.key (second.now - windowMs) second.now := by
      rw [allowedIn_limiterNext taken, if_neg, Nat.add_zero]
      rintro ⟨allowed, here, -⟩
      rcases unrelated with denied | other
      · rw [denied] at allowed
        cases allowed
      · exact other here
    rw [Bool.eq_iff_iff, allows_iff (recorded_limiterNext recorded inOrder taken) after,
      allows_iff recorded direct, same]
  · intro call inOrder
    obtain ⟨log, -, -, scores, unexpired⟩ := found_of_recorded recorded inOrder
    rw [scores, unexpired]

/-- A call with this id at this time, for at most two calls in a window. -/
def sampleCall (memberId : String) (now : ℤ) : ConsumeCall where
  key := LimitedRequest.key (.authenticatedGraphql "key" 2)
  limit := 2
  now := now
  memberId := memberId
  time := now + 3

theorem sliding_window_exact_sample : ∃ s : LimiterState,
    Reaches limiterNext (InOrder 3) .start s ∧
      s.calls.map Prod.snd = [true, true, false, true] ∧ ExactWindow 3 s := by
  obtain ⟨s, run, observed⟩ := exists_reachable_of_execute (admitted limiterNext (InOrder 3))
    LimiterState.start
    [sampleCall "a" 0, sampleCall "b" 59999, sampleCall "c" 59999, sampleCall "d" 60000]
    (fun s => s.calls.map Prod.snd = [true, true, false, true]) (by decide +kernel)
  have run := Reaches.of_admitted run
  exact ⟨s, run, of_decide_eq_true observed, sliding_window_exact run⟩

end EliteHubVault
