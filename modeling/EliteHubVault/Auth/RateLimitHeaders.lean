import EliteHubVault.Auth.ApiRateLimiter

/-!
# What the rate-limit headers promise

An allowed call says how many further calls there is room for, and a denied one says after how
many seconds to call again. Keys do not share anything, so only the calls on the key have to come
in order (`reaches_restrict`). The oldest call in the window is the first to leave it, and
`Retry-After` is the time until then in whole seconds, rounded up.
-/

set_option autoImplicit false

namespace EliteHubVault

open Library

/-! ## One key -/

/-- The calls on a key come in the order of their times with new member ids and one limit. -/
def OnKey (skew : ℤ) (key : String) (limit : ℕ) (s : LimiterState) (call : ConsumeCall) : Prop :=
  call.key = key → call.limit = limit ∧
    (∀ earlier ∈ s.calls, earlier.1.key = key → earlier.1.now ≤ call.now) ∧
    (∀ earlier ∈ s.calls, earlier.1.key = key → earlier.1.memberId ≠ call.memberId) ∧
    call.now + skew ≤ call.time ∧
    call.time ≤ call.now + skew + (keyTtlSeconds * 1000 - windowMs)

instance (skew : ℤ) (key : String) (limit : ℕ) (s : LimiterState) (call : ConsumeCall) :
    Decidable (OnKey skew key limit s call) := inferInstanceAs (Decidable (_ → _))

/-- The calls on the key are all made at one time. -/
def AtInstant (skew : ℤ) (key : String) (limit : ℕ) (instant : ℤ) (s : LimiterState)
    (call : ConsumeCall) : Prop :=
  OnKey skew key limit s call ∧ (call.key = key → call.now = instant)

/-- No call is on the key. -/
def Elsewhere (key : String) (_ : LimiterState) (call : ConsumeCall) : Prop := call.key ≠ key

/-- The number of calls on a key. -/
def LimiterState.servedOn (key : String) (s : LimiterState) : ℕ :=
  s.calls.countP fun served => served.1.key = key

/-- The state as a limiter with this one key would have it. -/
def LimiterState.restrict (key : String) (s : LimiterState) : LimiterState where
  redis other := if other = key then s.redis key else .empty
  calls := s.calls.filter fun served => served.1.key = key

section OneKey

variable {skew : ℤ} {key : String} {limit : ℕ} {s s' : LimiterState} {call : ConsumeCall}

theorem found_restrict (onKey : call.key = key) : (s.restrict key).found call = s.found call := by
  subst onKey
  simp only [LimiterState.found, LimiterState.restrict, if_pos]

theorem allows_restrict (onKey : call.key = key) :
    (s.restrict key).allows call = s.allows call := by
  rw [Bool.eq_iff_iff, allows_iff_found, allows_iff_found, found_restrict onKey]

theorem allowedCalls_restrict : (s.restrict key).allowedCalls key = s.allowedCalls key := by
  rw [LimiterState.allowedCalls, LimiterState.allowedCalls, LimiterState.restrict,
    List.filter_filter]
  refine congrArg (List.map Prod.fst) (List.filter_congr fun served _ => ?_)
  simp only [Bool.decide_and, Bool.and_assoc, Bool.and_self]

theorem allowedIn_restrict (earliest latest : ℤ) :
    (s.restrict key).allowedIn key earliest latest = s.allowedIn key earliest latest := by
  rw [LimiterState.allowedIn, allowedCalls_restrict]
  rfl

theorem inOrder_restrict (onKey : call.key = key) (order : OnKey skew key limit s call) :
    InOrder skew (s.restrict key) call := by
  obtain ⟨-, ordered, fresh, late, soon⟩ := order onKey
  have ofKey : ∀ served ∈ (s.restrict key).calls, served ∈ s.calls ∧ served.1.key = key := by
    intro served member
    simpa [LimiterState.restrict] using member
  exact ⟨fun earlier member => ordered earlier (ofKey earlier member).1 (ofKey earlier member).2,
    fun earlier member => fresh earlier (ofKey earlier member).1 (ofKey earlier member).2,
    late, soon⟩

/-- A call on another key leaves the key alone. -/
theorem restrict_limiterNext_of_ne (away : call.key ≠ key) (taken : limiterNext s call = some s') :
    s'.restrict key = s.restrict key := by
  have same : (consume call s.redis).1 key = s.redis key :=
    Function.update_of_ne (Ne.symm away) _ _
  rw [limiterNext_eq taken]
  simp [LimiterState.restrict, same, List.filter_append, away]

/-- A call on the key is a call of the limiter that has this key. -/
theorem limiterNext_restrict (onKey : call.key = key) (taken : limiterNext s call = some s') :
    limiterNext (s.restrict key) call = some (s'.restrict key) := by
  subst onKey
  rw [limiterNext_eq taken]
  have own : (s.restrict call.key).redis call.key = s.redis call.key := if_pos rfl
  have redis : (consume call (s.restrict call.key).redis).1 =
      fun other => if other = call.key then (consume call s.redis).1 call.key else .empty := by
    funext other
    by_cases here : other = call.key
    · subst here
      simp only [consume, Function.update_self, if_pos, own]
    · simp only [consume, Function.update_of_ne here, if_neg here, LimiterState.restrict]
  rw [limiterNext, allows_restrict rfl, redis]
  simp [LimiterState.restrict, List.filter_append]

/-- **Keys do not share anything**: what happens on a key happens in a run of this key. -/
theorem reaches_restrict (run : Reaches limiterNext (OnKey skew key limit) .start s) :
    Reaches limiterNext (fun s call => InOrder skew s call ∧ call.key = key ∧ call.limit = limit)
      .start (s.restrict key) := by
  have start : LimiterState.start.restrict key = .start := by
    simp [LimiterState.restrict, LimiterState.start]
  rw [← start]
  refine run.simulate (LimiterState.restrict key) fun s call s' order taken => ?_
  by_cases onKey : call.key = key
  · exact Reaches.start.step ⟨inOrder_restrict onKey order, onKey, (order onKey).1⟩
      (limiterNext_restrict onKey taken)
  · rw [restrict_limiterNext_of_ne onKey taken]
    exact .start

theorem recorded_restrict (run : Reaches limiterNext (OnKey skew key limit) .start s) :
    Recorded skew (s.restrict key) :=
  recorded_of_reaches ((reaches_restrict run).mono fun _ _ order => order.1)

/-- A call is allowed when there is room in its window. -/
theorem allows_onKey (run : Reaches limiterNext (OnKey skew key limit) .start s)
    (onKey : call.key = key) (order : OnKey skew key limit s call) :
    s.allows call = true ↔ s.allowedIn key (call.now - windowMs) call.now < limit := by
  have window := allows_iff (recorded_restrict run) (inOrder_restrict onKey order)
  rw [allows_restrict onKey, (order onKey).1, onKey, allowedIn_restrict] at window
  exact window

theorem limit_of_reaches {guard : LimiterState → ConsumeCall → Prop}
    (limited : ∀ s call, guard s call → call.limit = limit)
    (run : Reaches limiterNext guard .start s) : ∀ served ∈ s.calls, served.1.limit = limit := by
  induction run with
  | start => simp [LimiterState.start]
  | step _ order taken ih =>
      rw [limiterNext_eq taken]
      intro served member
      obtain old | rfl := List.mem_append.mp member |>.imp_right List.mem_singleton.mp
      · exact ih served old
      · exact limited _ _ order

/-- No window holds more than the limit. -/
theorem allowedIn_le_limit (run : Reaches limiterNext (OnKey skew key limit) .start s)
    (latest : ℤ) : s.allowedIn key (latest - windowMs) latest ≤ limit := by
  have alone := reaches_restrict run
  rw [← allowedIn_restrict]
  exact window_of_reaches (alone.mono fun _ _ order => order.1) key limit
    (fun served member _ => (limit_of_reaches (fun _ _ order => order.2.2) alone served member).le)
    latest

/-! ## The calls that are left -/

/-- A call on the key that is allowed is one more in its window. -/
theorem allowedIn_of_taken (onKey : call.key = key) (taken : limiterNext s call = some s') :
    s'.allowedIn key (call.now - windowMs) call.now =
      s.allowedIn key (call.now - windowMs) call.now + if s.allows call = true then 1 else 0 := by
  have window : call.now - windowMs < call.now := by
    unfold windowMs windowSeconds
    omega
  rw [allowedIn_limiterNext taken]
  simp [onKey, window]

theorem servedOn_limiterNext (taken : limiterNext s call = some s') :
    s'.servedOn key = s.servedOn key + if call.key = key then 1 else 0 := by
  rw [limiterNext_eq taken, LimiterState.servedOn, List.countP_append, List.countP_singleton]
  simp [LimiterState.servedOn]

/-- At one instant, calls are allowed until the window is full. -/
theorem allowedIn_of_reaches {instant : ℤ} {before after : LimiterState}
    (run : Reaches limiterNext (OnKey skew key limit) .start before)
    (later : Reaches limiterNext (AtInstant skew key limit instant) before after) :
    after.allowedIn key (instant - windowMs) instant =
      min (before.allowedIn key (instant - windowMs) instant +
        (after.servedOn key - before.servedOn key)) limit ∧
      before.servedOn key ≤ after.servedOn key := by
  induction later with
  | start =>
      rw [Nat.sub_self, Nat.add_zero]
      exact ⟨(min_eq_left (allowedIn_le_limit run instant)).symm, le_rfl⟩
  | @step middle after call earlier order taken ih =>
      obtain ⟨full, grows⟩ := ih
      have reached := run.trans (earlier.mono fun _ _ order => order.1)
      have served : after.servedOn key = middle.servedOn key + if call.key = key then 1 else 0 :=
        servedOn_limiterNext taken
      by_cases onKey : call.key = key
      · obtain rfl := order.2 onKey
        have room := allows_onKey reached onKey order.1
        rw [if_pos onKey] at served
        rw [allowedIn_of_taken onKey taken]
        refine ⟨?_, by omega⟩
        split
        · rename_i allowed
          have := room.mp allowed
          omega
        · rename_i denied
          have := not_lt.mp fun free => denied (room.mpr free)
          omega
      · rw [if_neg onKey, Nat.add_zero] at served
        rw [allowedIn_limiterNext taken, if_neg fun counted => onKey counted.2.1, served,
          Nat.add_zero]
        exact ⟨full, grows⟩

/-! ## The oldest call -/

/-- The first call that leaves the window of a call. -/
structure IsOldest (key : String) (s : LimiterState) (now oldest : ℤ) : Prop where
  stored : ∃ first ∈ s.allowedCalls key, first.now = oldest
  inside : now - windowMs < oldest
  least : ∀ other ∈ s.allowedCalls key, now - windowMs < other.now → oldest ≤ other.now

/-- The script returns the score of the oldest call. -/
theorem exists_oldest (run : Reaches limiterNext (OnKey skew key limit) .start s)
    (onKey : call.key = key) (order : OnKey skew key limit s call)
    (some_call : 0 < (s.found call).zcard) :
    ∃ oldest, (s.found call).zrangeFirstScore = some oldest ∧ IsOldest key s call.now oldest := by
  obtain ⟨log, entries, -, scores, -⟩ :=
    found_of_recorded (recorded_restrict run) (inOrder_restrict onKey order)
  rw [found_restrict onKey] at scores
  rw [onKey, allowedCalls_restrict] at entries
  have inside : ∀ score, score ∈ (s.found call).scores.entries.map Prod.snd ↔
      ∃ other ∈ s.allowedCalls key, call.now - windowMs < other.now ∧ other.now = score := by
    intro score
    rw [List.mem_map, scores]
    constructor
    · rintro ⟨entry, member, rfl⟩
      obtain ⟨inLog, above⟩ := OrderedMap.mem_keepAbove.mp member
      rw [entries] at inLog
      obtain ⟨other, inCalls, rfl⟩ := List.mem_map.mp inLog
      exact ⟨other, inCalls, above, rfl⟩
    · rintro ⟨other, inCalls, above, rfl⟩
      refine ⟨(other.member, other.now), OrderedMap.mem_keepAbove.mpr ⟨?_, above⟩, rfl⟩
      rw [entries]
      exact List.mem_map_of_mem inCalls
  cases first : (s.found call).zrangeFirstScore with
  | none =>
      have empty := List.map_eq_nil_iff.mp (List.min?_eq_none_iff.mp first)
      rw [SortedSet.zcard, OrderedMap.size, empty] at some_call
      cases some_call
  | some oldest =>
      obtain ⟨member, least⟩ := List.min?_eq_some_iff.mp first
      obtain ⟨other, inCalls, above, same⟩ := (inside oldest).mp member
      refine ⟨oldest, rfl, ⟨other, inCalls, same⟩, same ▸ above, fun other inCalls above => ?_⟩
      exact least _ ((inside _).mpr ⟨other, inCalls, above, rfl⟩)

/-- The window is full until its oldest call has left it, and then there is room. -/
theorem room_iff_oldest_left (run : Reaches limiterNext (OnKey skew key limit) .start s)
    {now oldest later : ℤ} (oldestCall : IsOldest key s now oldest)
    (ordered : ∀ other ∈ s.allowedCalls key, other.now ≤ now)
    (full : limit ≤ s.allowedIn key (now - windowMs) now) (after : now ≤ later) :
    s.allowedIn key (later - windowMs) later < limit ↔ oldest + windowMs ≤ later := by
  obtain ⟨⟨first, stored, rfl⟩, inside, least⟩ := oldestCall
  constructor
  · intro room
    by_contra still
    refine absurd (full.trans (List.countP_mono_left fun other member counted => ?_))
      (not_le.mpr room)
    simp only [decide_eq_true_eq] at counted ⊢
    have := least other member counted.1
    omega
  · intro left
    -- The calls in the later window are calls in this one, and the oldest is not among them.
    have fewer : s.allowedIn key (later - windowMs) later =
        ((s.allowedCalls key).filter fun other =>
          decide (now - windowMs < other.now ∧ other.now ≤ now)).countP fun other =>
            decide (later - windowMs < other.now) := by
      rw [List.countP_filter, LimiterState.allowedIn]
      refine List.countP_congr fun other member => ?_
      have := ordered other member
      simp only [decide_eq_true_eq, Bool.and_eq_true]
      omega
    have size : s.allowedIn key (now - windowMs) now = ((s.allowedCalls key).filter fun other =>
        decide (now - windowMs < other.now ∧ other.now ≤ now)).length :=
      List.countP_eq_length_filter
    have gone : ((s.allowedCalls key).filter fun other =>
        decide (now - windowMs < other.now ∧ other.now ≤ now)).countP (fun other =>
          decide (later - windowMs < other.now)) < s.allowedIn key (now - windowMs) now := by
      rw [size, List.countP_lt_length_iff]
      refine ⟨first, List.mem_filter.mpr ⟨stored, ?_⟩, ?_⟩
      · simp only [decide_eq_true_eq]
        exact ⟨inside, ordered first stored⟩
      · simp only [decide_eq_false_iff_not]
        omega
    rw [fewer]
    exact gone.trans_le (allowedIn_le_limit run now)

/-! ## The headers -/

/-- What the script returns. -/
theorem eval_result : (call.eval (s.redis call.key)).2 =
    if call.limit ≤ (s.found call).zcard then
      { allowed := false, count := (s.found call).zcard,
        oldestTimestampMs := (s.found call).zrangeFirstScore.getD call.now }
    else
      { allowed := true, count := (s.found call).zcard + 1,
        oldestTimestampMs := (((s.found call).zadd call.member call.now).expire
          (call.time + keyTtlSeconds * 1000)).zrangeFirstScore.getD call.now } := by
  unfold ConsumeCall.eval slidingWindowScript
  exact apply_ite Prod.snd _ _ _

/-- An allowed call is told what is left of its limit. -/
theorem headers_of_ok {headers : RateLimitHeaders}
    (decided : (consume call s.redis).2 = .ok headers) :
    s.allows call = true ∧ headers.remaining = call.limit - ((s.found call).zcard + 1) := by
  rw [consume, ConsumeCall.decision, eval_result] at decided
  rw [allows_iff_found]
  split at decided
  · cases decided
  · rename_i room
    cases decided
    exact ⟨not_le.mp room, rfl⟩

/-- A denied call is told when the oldest call leaves its window. -/
theorem headers_of_rateLimited {headers : RateLimitHeaders}
    (decided : (consume call s.redis).2 = .rateLimited headers) :
    s.allows call = false ∧ headers.retryAfter = some (max 1 (ceilSeconds
      (max ((s.found call).zrangeFirstScore.getD call.now + windowMs - call.now) 0))) := by
  rw [consume, ConsumeCall.decision, eval_result] at decided
  rw [Bool.eq_false_iff, ne_eq, allows_iff_found, not_lt]
  split at decided
  · rename_i full
    cases decided
    exact ⟨full, rfl⟩
  · cases decided

/-- A window that is found full holds as many calls as the limit. -/
theorem zcard_found (run : Reaches limiterNext (OnKey skew key limit) .start s)
    (onKey : call.key = key) (order : OnKey skew key limit s call) :
    (s.found call).zcard = s.allowedIn key (call.now - windowMs) call.now := by
  obtain ⟨log, entries, -, scores, -⟩ :=
    found_of_recorded (recorded_restrict run) (inOrder_restrict onKey order)
  have ordered := (inOrder_restrict onKey order).1
  rw [found_restrict onKey] at scores
  rw [SortedSet.zcard, scores, size_keepAbove entries ordered, onKey, allowedIn_restrict]

/-- Calls on other keys do not change what is allowed on this one. -/
theorem restrict_of_elsewhere {before after : LimiterState}
    (run : Reaches limiterNext (Elsewhere key) before after) :
    after.restrict key = before.restrict key := by
  induction run with
  | start => rfl
  | step _ away taken ih => rw [restrict_limiterNext_of_ne away taken, ih]

/-- What is promised to a call on a key that has been decided. -/
structure TruthfulHeaders (skew : ℤ) (key : String) (limit : ℕ) (s s' : LimiterState)
    (call : ConsumeCall) : Prop where
  remaining : ∀ headers, (consume call s.redis).2 = .ok headers →
    ∀ s'', Reaches limiterNext (AtInstant skew key limit call.now) s' s'' →
      ∀ further, further.key = key → AtInstant skew key limit call.now s'' further →
        (s''.allows further = true ↔ s''.servedOn key - s'.servedOn key < headers.remaining)
  retryAfter : ∀ headers, (consume call s.redis).2 = .rateLimited headers →
    ∃ seconds, headers.retryAfter = some seconds ∧
      ∀ s'', Reaches limiterNext (Elsewhere key) s' s'' →
        ∀ later, later.key = key → OnKey skew key limit s'' later →
          (call.now + 1000 * seconds ≤ later.now → s''.allows later = true) ∧
            (later.now < call.now + 1000 * (seconds - 1) → s''.allows later = false)

/-- **Rate-limit headers tell the truth** in every run. -/
theorem rate_limit_headers_truthful (positive : 1 ≤ limit)
    (run : Reaches limiterNext (OnKey skew key limit) .start s) (onKey : call.key = key)
    (order : OnKey skew key limit s call) (taken : limiterNext s call = some s') :
    TruthfulHeaders skew key limit s s' call := by
  have run' := run.step order taken
  have size := zcard_found run onKey order
  have counted := allowedIn_of_taken onKey taken
  refine ⟨fun headers decided s'' earlier further onKey' atInstant => ?_,
    fun headers decided => ?_⟩
  · obtain ⟨allowed, remaining⟩ := headers_of_ok decided
    obtain ⟨full, grows⟩ := allowedIn_of_reaches run' earlier
    have reached := run'.trans (earlier.mono fun _ _ order => order.1)
    have room := allows_onKey reached onKey' atInstant.1
    have within := (allows_onKey run onKey order).mp allowed
    rw [atInstant.2 onKey', full, counted, if_pos allowed] at room
    rw [room, remaining, (order onKey).1, size]
    omega
  · obtain ⟨denied, header⟩ := headers_of_rateLimited decided
    have full : limit ≤ s.allowedIn key (call.now - windowMs) call.now :=
      not_lt.mp fun room => by
        rw [(allows_onKey run onKey order).mpr room] at denied
        cases denied
    obtain ⟨oldest, first, oldestCall⟩ := exists_oldest run onKey order (by omega)
    rw [first, Option.getD_some] at header
    refine ⟨_, header, fun s'' earlier later onKey' order' => ?_⟩
    have reached : Reaches limiterNext (OnKey skew key limit) .start s'' :=
      run'.trans (earlier.mono fun _ _ away onKey => absurd onKey away)
    have calls : s''.allowedCalls key = s.allowedCalls key := by
      rw [← allowedCalls_restrict, restrict_of_elsewhere earlier, allowedCalls_restrict,
        allowedCalls_limiterNext taken, if_neg fun counted => by simp [denied] at counted,
        List.append_nil]
    have same : ∀ earliest latest, s''.allowedIn key earliest latest =
        s.allowedIn key earliest latest := fun earliest latest => by
      rw [LimiterState.allowedIn, LimiterState.allowedIn, calls]
    have ordered : ∀ other ∈ s.allowedCalls key, other.now ≤ call.now := by
      intro other member
      obtain ⟨inCalls, here⟩ := mem_allowedCalls.mp member
      exact (order onKey).2.1 _ inCalls here
    have after : call.now ≤ later.now := by
      have recorded : (call, s.allows call) ∈ (s''.restrict key).calls := by
        rw [restrict_of_elsewhere earlier, limiterNext_eq taken]
        simp [LimiterState.restrict, onKey]
      exact (order' onKey').2.1 _ (List.mem_filter.mp recorded).1 onKey
    have decision := allows_onKey reached onKey' order'
    rw [same, room_iff_oldest_left run oldestCall ordered full after] at decision
    have inside := oldestCall.inside
    unfold ceilSeconds windowMs windowSeconds at *
    refine ⟨fun waited => decision.mpr ?_, fun early => ?_⟩
    · omega
    · rw [Bool.eq_false_iff, ne_eq, decision]
      omega

end OneKey

/-- Two calls fill the window of a key. The third is told to wait a second, in which the first
call leaves the window. -/
theorem rate_limit_headers_truthful_sample : ∃ s s' : LimiterState,
    limiterNext s (sampleCall "c" 59001) = some s' ∧
      (consume (sampleCall "c" 59001) s.redis).2 = .rateLimited ⟨2, 0, 60, some 1⟩ ∧
        TruthfulHeaders 3 (sampleCall "c" 59001).key 2 s s' (sampleCall "c" 59001) := by
  obtain ⟨s, run, observed⟩ := exists_reachable_of_execute
    (admitted limiterNext (OnKey 3 (sampleCall "c" 59001).key 2)) LimiterState.start
    [sampleCall "a" 0, sampleCall "b" 59000]
    (fun s => decide (OnKey 3 (sampleCall "c" 59001).key 2 s (sampleCall "c" 59001) ∧
      (consume (sampleCall "c" 59001) s.redis).2 =
        (.rateLimited ⟨2, 0, 60, some 1⟩ : RateLimitDecision))) (by decide +kernel)
  obtain ⟨order, decided⟩ := of_decide_eq_true observed
  exact ⟨s, _, rfl, decided,
    rate_limit_headers_truthful (by decide) (.of_admitted run) rfl order rfl⟩

end EliteHubVault
