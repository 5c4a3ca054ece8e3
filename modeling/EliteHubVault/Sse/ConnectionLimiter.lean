import EliteHubVault.Library.Runs
import EliteHubVault.Library.SortedSets

/-!
# Leases of SSE connections

A lease is a member of its API key's sorted set, with the time at which it expires as its
score. Opening and refreshing a lease first remove the expired ones. The register keeps what
the calls were told: the leases that were opened and not released, with the expiry of their
last refresh. The sets hold exactly its unexpired leases, so the quota holds (`lease_quota`).
-/

set_option autoImplicit false

namespace EliteHubVault

open Library

/-! ## The limiter -/

def leaseTtlMs : ℤ := 90000
def leaseTtlSeconds : ℤ := -(-leaseTtlMs / 1000)

def getLeaseKey (apiKeyId : String) : String := "sse:leases:" ++ apiKeyId

/-- `ACQUIRE_SCRIPT`, at a time of the server's clock in milliseconds. -/
def acquireScript (time now expiresAt : ℤ) (maxConnections : ℕ) (connectionLeaseId : String)
    (ttlSeconds : ℤ) (set : SortedSet String) : SortedSet String × (Bool × ℕ × ℕ) :=
  let set := (set.live time).zremrangebyscore now
  let active := set.zcard
  if maxConnections ≤ active then (set, false, active, maxConnections)
  else
    ((set.zadd connectionLeaseId expiresAt).expire (time + ttlSeconds * 1000),
      true, active + 1, maxConnections)

/-- `REFRESH_SCRIPT`. -/
def refreshScript (time now expiresAt : ℤ) (connectionLeaseId : String) (ttlSeconds : ℤ)
    (set : SortedSet String) : SortedSet String × Bool :=
  let set := (set.live time).zremrangebyscore now
  if set.zscore connectionLeaseId = none then (set, false)
  else ((set.zadd connectionLeaseId expiresAt).expire (time + ttlSeconds * 1000), true)

/-- `RELEASE_SCRIPT`. -/
def releaseScript (time : ℤ) (connectionLeaseId : String) (set : SortedSet String) :
    SortedSet String :=
  let set := (set.live time).zrem connectionLeaseId
  if set.zcard = 0 then .empty else set

inductive LeaseMethod where
  | tryOpen (maxConnections : ℕ)
  | refreshLease
  | releaseLease
deriving DecidableEq

/-- A call of the limiter, with the caller's time and the time of the server at which its script
runs. -/
structure LeaseCall where
  method : LeaseMethod
  apiKeyId : String
  connectionLeaseId : String
  now : ℤ
  time : ℤ
deriving DecidableEq

structure OpenQuotaDecision where
  ok : Bool
  active : ℕ
  max : ℕ
deriving DecidableEq

def tryOpen (maxConnections : ℕ) (call : LeaseCall) (set : SortedSet String) :
    SortedSet String × OpenQuotaDecision :=
  let result := acquireScript call.time call.now (call.now + leaseTtlMs) maxConnections
    call.connectionLeaseId leaseTtlSeconds set
  (result.1, { ok := result.2.1, active := result.2.2.1, max := result.2.2.2 })

def refreshLease (call : LeaseCall) (set : SortedSet String) : SortedSet String × Bool :=
  refreshScript call.time call.now (call.now + leaseTtlMs) call.connectionLeaseId leaseTtlSeconds set

def releaseLease (call : LeaseCall) (set : SortedSet String) : SortedSet String :=
  releaseScript call.time call.connectionLeaseId set

/-! ## Runs -/

/-- The store; the register of leases with their expiry; the lease ids used so far; and the two
clocks at the last call. -/
structure LeaseState where
  redis : String → SortedSet String
  register : String → OrderedMap String ℤ
  opened : List String
  now : ℤ
  time : ℤ

/-- Before any call. -/
def LeaseState.start (now time : ℤ) : LeaseState :=
  ⟨fun _ => .empty, fun _ => .empty, [], now, time⟩

/-- The set of an API key. -/
def LeaseState.set (s : LeaseState) (apiKeyId : String) : SortedSet String :=
  s.redis (getLeaseKey apiKeyId)

/-- The leases of an API key that expire after a time. -/
def LeaseState.unexpired (s : LeaseState) (apiKeyId : String) (now : ℤ) : OrderedMap String ℤ :=
  (s.register apiKeyId).keepAbove now

/-- The set that a call leaves, and the entry of its API key in the register. -/
def LeaseState.outcome (s : LeaseState) (call : LeaseCall) :
    SortedSet String × OrderedMap String ℤ :=
  let leases := s.register call.apiKeyId
  match call.method with
  | .tryOpen maxConnections =>
      let result := tryOpen maxConnections call (s.set call.apiKeyId)
      (result.1, if result.2.ok then leases.set call.connectionLeaseId (call.now + leaseTtlMs)
        else leases)
  | .refreshLease =>
      let result := refreshLease call (s.set call.apiKeyId)
      (result.1, if result.2 then leases.set call.connectionLeaseId (call.now + leaseTtlMs)
        else leases)
  | .releaseLease =>
      (releaseLease call (s.set call.apiKeyId), leases.delete call.connectionLeaseId)

/-- The lease id that a call uses for the first time. -/
def LeaseCall.opens (call : LeaseCall) : List String :=
  match call.method with
  | .tryOpen _ => [call.connectionLeaseId]
  | _ => []

def leaseNext (s : LeaseState) (call : LeaseCall) : Option LeaseState :=
  some
    { redis := Function.update s.redis (getLeaseKey call.apiKeyId) (s.outcome call).1
      register := Function.update s.register call.apiKeyId (s.outcome call).2
      opened := s.opened ++ call.opens
      now := call.now
      time := call.time }

/-- Times pass between the last call and this one: the callers' clock does not go back, and the
server's does not gain on it. -/
def LeaseState.Passes (s : LeaseState) (now time : ℤ) : Prop :=
  s.now ≤ now ∧ time - s.time ≤ now - s.now

instance (s : LeaseState) (now time : ℤ) : Decidable (s.Passes now time) :=
  inferInstanceAs (Decidable (_ ∧ _))

/-- A lease is opened under a new id, with the maximum of its API key. -/
def LeaseMethod.OpensFresh (maximum : String → ℕ) (s : LeaseState) (call : LeaseCall) :
    LeaseMethod → Prop
  | .tryOpen maxConnections =>
      call.connectionLeaseId ∉ s.opened ∧ maxConnections = maximum call.apiKeyId
  | .refreshLease => True
  | .releaseLease => True

instance (maximum : String → ℕ) (s : LeaseState) (call : LeaseCall) :
    (method : LeaseMethod) → Decidable (method.OpensFresh maximum s call)
  | .tryOpen _ => inferInstanceAs (Decidable (_ ∧ _))
  | .refreshLease => isTrue trivial
  | .releaseLease => isTrue trivial

/-- The calls of a run. -/
def LeaseOrder (maximum : String → ℕ) (s : LeaseState) (call : LeaseCall) : Prop :=
  s.Passes call.now call.time ∧ call.method.OpensFresh maximum s call

instance (maximum : String → ℕ) (s : LeaseState) (call : LeaseCall) :
    Decidable (LeaseOrder maximum s call) := inferInstanceAs (Decidable (_ ∧ _))

/-! ## The sets and the register -/

theorem getLeaseKey_injective : Function.Injective getLeaseKey :=
  fun _ _ same => (String.append_right_inj _).mp same

/-- The sets hold the leases of the register, but for expired ones; a lease expires within its
time to live and has been opened; and no more than the maximum are unexpired. -/
structure Registered (maximum : String → ℕ) (s : LeaseState) : Prop where
  tracks : ∀ apiKeyId, SortedSet.Tracks (s.time - s.now) s.now (s.register apiKeyId)
    (s.set apiKeyId)
  expires : ∀ apiKeyId, ∀ lease ∈ (s.register apiKeyId).entries, lease.2 ≤ s.now + leaseTtlMs
  opened : ∀ apiKeyId, ∀ connectionLeaseId ∈ (s.register apiKeyId).keys,
    connectionLeaseId ∈ s.opened
  quota : ∀ apiKeyId, (s.unexpired apiKeyId s.now).size ≤ maximum apiKeyId

/-- Leases only expire while time passes. -/
theorem size_unexpired_le (s : LeaseState) (apiKeyId : String) {now now' : ℤ} (passes : now ≤ now') :
    (s.unexpired apiKeyId now').size ≤ (s.unexpired apiKeyId now).size := by
  rw [LeaseState.unexpired, LeaseState.unexpired, OrderedMap.size_keepAbove,
    OrderedMap.size_keepAbove]
  refine List.countP_mono_left fun lease _ later => ?_
  simp only [decide_eq_true_eq] at later ⊢
  omega

section Step

variable {maximum : String → ℕ} {s s' : LeaseState} {call : LeaseCall}

/-- What a script finds when it has removed the expired leases. -/
def LeaseState.found (s : LeaseState) (call : LeaseCall) : SortedSet String :=
  ((s.set call.apiKeyId).live call.time).zremrangebyscore call.now

/-- The key and its register when the clocks have moved on. -/
theorem tracks_of_passes (registered : Registered maximum s) {now time : ℤ}
    (passes : s.Passes now time) (apiKeyId : String) :
    SortedSet.Tracks (time - now) now (s.register apiKeyId) (s.set apiKeyId) :=
  (registered.tracks apiKeyId).mono (by have := passes.2; omega) passes.1

/-- **What a script finds**: the unexpired leases, whether or not the key has expired. -/
theorem found_of_registered (registered : Registered maximum s)
    (passes : s.Passes call.now call.time) :
    SortedSet.Tracks (call.time - call.now) call.now (s.register call.apiKeyId) (s.found call) ∧
      (s.found call).scores = s.unexpired call.apiKeyId call.now := by
  have lead : call.time ≤ call.now + (call.time - call.now) := by omega
  obtain ⟨tracks, scores, -⟩ := (tracks_of_passes registered passes call.apiKeyId).evict lead
  exact ⟨tracks, scores⟩

theorem tryOpen_eq (maxConnections : ℕ) : tryOpen maxConnections call (s.set call.apiKeyId) =
    if maxConnections ≤ (s.found call).zcard then
      (s.found call, ⟨false, (s.found call).zcard, maxConnections⟩)
    else
      (((s.found call).zadd call.connectionLeaseId (call.now + leaseTtlMs)).expire
        (call.time + leaseTtlSeconds * 1000), ⟨true, (s.found call).zcard + 1, maxConnections⟩) := by
  by_cases full : maxConnections ≤ (s.found call).zcard
  · rw [if_pos full]
    simp only [LeaseState.found] at full
    simp only [tryOpen, acquireScript, LeaseState.found, if_pos full]
  · rw [if_neg full]
    simp only [LeaseState.found] at full
    simp only [tryOpen, acquireScript, LeaseState.found, if_neg full]

theorem refreshLease_eq : refreshLease call (s.set call.apiKeyId) =
    if (s.found call).zscore call.connectionLeaseId = none then (s.found call, false)
    else
      (((s.found call).zadd call.connectionLeaseId (call.now + leaseTtlMs)).expire
        (call.time + leaseTtlSeconds * 1000), true) := rfl

/-- **A lease is opened exactly when fewer than the maximum are unexpired.** -/
theorem tryOpen_ok_iff (registered : Registered maximum s) (passes : s.Passes call.now call.time)
    (maxConnections : ℕ) : (tryOpen maxConnections call (s.set call.apiKeyId)).2.ok = true ↔
      (s.unexpired call.apiKeyId call.now).size < maxConnections := by
  have count : (s.found call).zcard = (s.unexpired call.apiKeyId call.now).size := by
    rw [SortedSet.zcard, (found_of_registered registered passes).2]
  rw [tryOpen_eq, ← count]
  split
  · rename_i full
    simpa using full
  · rename_i room
    simpa using room

/-- **A lease is refreshed exactly when it is unexpired.** -/
theorem refreshLease_iff (registered : Registered maximum s)
    (passes : s.Passes call.now call.time) :
    (refreshLease call (s.set call.apiKeyId)).2 = true ↔ ∃ expiresAt,
      (s.register call.apiKeyId).get call.connectionLeaseId = some expiresAt ∧
        call.now < expiresAt := by
  have score : (s.found call).zscore call.connectionLeaseId =
      (s.unexpired call.apiKeyId call.now).get call.connectionLeaseId := by
    rw [SortedSet.zscore, (found_of_registered registered passes).2]
  simp only [← OrderedMap.get_keepAbove]
  rw [refreshLease_eq, score, ← Option.isSome_iff_exists, LeaseState.unexpired]
  split
  · rename_i unknown
    simp [unknown]
  · rename_i known
    simp [Option.isSome_iff_ne_none, known]

/-- A lease that is granted until its time to live has passed. -/
theorem tracks_granted (registered : Registered maximum s) (passes : s.Passes call.now call.time)
    (live : ∀ expiresAt, (s.register call.apiKeyId).get call.connectionLeaseId = some expiresAt →
      call.now < expiresAt) :
    SortedSet.Tracks (call.time - call.now) call.now
      ((s.register call.apiKeyId).set call.connectionLeaseId (call.now + leaseTtlMs))
      (((s.found call).zadd call.connectionLeaseId (call.now + leaseTtlMs)).expire
        (call.time + leaseTtlSeconds * 1000)) := by
  obtain ⟨-, scores⟩ := found_of_registered registered passes
  have ttl : leaseTtlSeconds * 1000 = leaseTtlMs := by decide
  have lasts : (0 : ℤ) < leaseTtlMs := by decide
  refine SortedSet.Tracks.of_zadd scores (by omega) live (fun lease member => ?_) (by omega)
  rw [scores] at member
  have expires := registered.expires _ lease (OrderedMap.mem_keepAbove.mp member).1
  have later := passes.1
  omega

/-- A lease that is opened is new. -/
theorem unknown_of_fresh (registered : Registered maximum s)
    (fresh : call.connectionLeaseId ∉ s.opened) :
    (s.register call.apiKeyId).get call.connectionLeaseId = none :=
  OrderedMap.get_eq_none_iff.mpr fun known => fresh (registered.opened _ _ known)

/-- **What a call leaves** of the set of its API key and of the register. -/
theorem tracks_outcome (registered : Registered maximum s) (order : LeaseOrder maximum s call) :
    SortedSet.Tracks (call.time - call.now) call.now (s.outcome call).2 (s.outcome call).1 := by
  obtain ⟨passes, fresh⟩ := order
  obtain ⟨tracks, -⟩ := found_of_registered registered passes
  cases method : call.method with
  | tryOpen maxConnections =>
      rw [method] at fresh
      have unknown := unknown_of_fresh registered fresh.1
      simp only [LeaseState.outcome, method, tryOpen_eq]
      split
      · exact tracks
      · exact tracks_granted registered passes fun _ known => by rw [unknown] at known; cases known
  | refreshLease =>
      have refreshed := refreshLease_iff registered passes
      simp only [LeaseState.outcome, method]
      simp only [refreshLease_eq] at refreshed ⊢
      split
      · exact tracks
      · rename_i known
        rw [if_neg known] at refreshed
        obtain ⟨expiresAt, found, live⟩ := refreshed.mp rfl
        refine tracks_granted registered passes fun other found' => ?_
        rw [← Option.some.inj (found.symm.trans found')]
        exact live
  | releaseLease =>
      have lead : call.time ≤ call.now + (call.time - call.now) := by omega
      have left : SortedSet.Tracks (call.time - call.now) call.now
          ((s.register call.apiKeyId).delete call.connectionLeaseId)
          (((s.set call.apiKeyId).live call.time).zrem call.connectionLeaseId) :=
        ((tracks_of_passes registered passes call.apiKeyId).live lead).zrem
      simp only [LeaseState.outcome, method, releaseLease, releaseScript]
      split
      · rename_i nobody
        rw [← SortedSet.zrem_of_zcard_eq_zero nobody]
        exact left
      · exact left

/-- The register of the API key after a call. -/
theorem register_outcome (registered : Registered maximum s) (order : LeaseOrder maximum s call) :
    (s.outcome call).2 = s.register call.apiKeyId ∨
      (s.outcome call).2 =
        (s.register call.apiKeyId).set call.connectionLeaseId (call.now + leaseTtlMs) ∧
        ((call.method = .tryOpen (maximum call.apiKeyId) ∧ call.connectionLeaseId ∉ s.opened ∧
            (s.unexpired call.apiKeyId call.now).size < maximum call.apiKeyId) ∨
          ∃ expiresAt, (s.register call.apiKeyId).get call.connectionLeaseId = some expiresAt ∧
            call.now < expiresAt) ∨
      (s.outcome call).2 = (s.register call.apiKeyId).delete call.connectionLeaseId := by
  obtain ⟨passes, fresh⟩ := order
  cases method : call.method with
  | tryOpen maxConnections =>
      rw [method] at fresh
      obtain ⟨new, rfl⟩ := fresh
      have opens := tryOpen_ok_iff registered passes (maximum call.apiKeyId)
      simp only [LeaseState.outcome, method]
      cases granted : (tryOpen (maximum call.apiKeyId) call (s.set call.apiKeyId)).2.ok with
      | false => exact .inl rfl
      | true => exact .inr (.inl ⟨rfl, .inl ⟨trivial, new, opens.mp granted⟩⟩)
  | refreshLease =>
      have refreshed := refreshLease_iff registered passes
      simp only [LeaseState.outcome, method]
      cases granted : (refreshLease call (s.set call.apiKeyId)).2 with
      | false => exact .inl rfl
      | true => exact .inr (.inl ⟨rfl, .inr (refreshed.mp granted)⟩)
  | releaseLease =>
      simp only [LeaseState.outcome, method]
      exact .inr (.inr trivial)

theorem leaseNext_eq (taken : leaseNext s call = some s') :
    s' =
      { redis := Function.update s.redis (getLeaseKey call.apiKeyId) (s.outcome call).1
        register := Function.update s.register call.apiKeyId (s.outcome call).2
        opened := s.opened ++ call.opens
        now := call.now
        time := call.time } :=
  (Option.some.inj taken).symm

theorem set_leaseNext (taken : leaseNext s call = some s') (apiKeyId : String) :
    s'.set apiKeyId = if apiKeyId = call.apiKeyId then (s.outcome call).1 else s.set apiKeyId := by
  rw [leaseNext_eq taken, LeaseState.set]
  split
  · rename_i here
    rw [here]
    exact Function.update_self ..
  · rename_i away
    exact Function.update_of_ne (fun same => away (getLeaseKey_injective same)) ..

theorem register_leaseNext (taken : leaseNext s call = some s') (apiKeyId : String) :
    s'.register apiKeyId =
      if apiKeyId = call.apiKeyId then (s.outcome call).2 else s.register apiKeyId := by
  rw [leaseNext_eq taken]
  split
  · rename_i here
    rw [here]
    exact Function.update_self ..
  · rename_i away
    exact Function.update_of_ne away ..

/-- **The quota after a call.** -/
theorem size_outcome_le (registered : Registered maximum s) (order : LeaseOrder maximum s call) :
    ((s.outcome call).2.keepAbove call.now).size ≤ maximum call.apiKeyId := by
  have lasts : (0 : ℤ) < leaseTtlMs := by decide
  have before : (s.unexpired call.apiKeyId call.now).size ≤ maximum call.apiKeyId :=
    (size_unexpired_le s call.apiKeyId order.1.1).trans (registered.quota call.apiKeyId)
  obtain same | ⟨granted, cases⟩ | released := register_outcome registered order
  · rw [same]
    exact before
  · have live : ∀ expiresAt,
        (s.register call.apiKeyId).get call.connectionLeaseId = some expiresAt →
          call.now < expiresAt := by
      intro other found
      obtain ⟨-, fresh, -⟩ | ⟨expiresAt, known, live⟩ := cases
      · rw [unknown_of_fresh registered fresh] at found
        cases found
      · rw [← Option.some.inj (known.symm.trans found)]
        exact live
    have kept : ((s.register call.apiKeyId).set call.connectionLeaseId
        (call.now + leaseTtlMs)).keepAbove call.now =
          (s.unexpired call.apiKeyId call.now).set call.connectionLeaseId (call.now + leaseTtlMs) :=
      OrderedMap.keepAbove_set (by omega) live
    rw [granted, kept, OrderedMap.size_set]
    obtain ⟨-, -, room⟩ | ⟨expiresAt, known, unexpired⟩ := cases
    · split <;> omega
    · rw [if_pos]
      · exact before
      · rw [← OrderedMap.get_isSome_iff, LeaseState.unexpired,
          OrderedMap.get_keepAbove.mpr ⟨known, unexpired⟩]
        rfl
  · rw [released, OrderedMap.keepAbove_delete]
    exact (OrderedMap.size_delete_le _ _).trans before

theorem registered_leaseNext (registered : Registered maximum s)
    (order : LeaseOrder maximum s call) (taken : leaseNext s call = some s') :
    Registered maximum s' := by
  have passes := order.1
  have now : s'.now = call.now := by rw [leaseNext_eq taken]
  have time : s'.time = call.time := by rw [leaseNext_eq taken]
  have opened : s'.opened = s.opened ++ call.opens := by rw [leaseNext_eq taken]
  have outcome := register_outcome registered order
  refine ⟨fun apiKeyId => ?_, fun apiKeyId lease member => ?_, fun apiKeyId leaseId known => ?_,
    fun apiKeyId => ?_⟩
  · rw [now, time, register_leaseNext taken, set_leaseNext taken]
    split
    · exact tracks_outcome registered order
    · exact tracks_of_passes registered passes apiKeyId
  · rw [register_leaseNext taken] at member
    rw [now]
    have old : ∀ lease ∈ (s.register apiKeyId).entries, lease.2 ≤ call.now + leaseTtlMs :=
      fun lease member => by
        have expires := registered.expires apiKeyId lease member
        have later := passes.1
        omega
    split at member
    · rename_i here
      subst here
      obtain same | ⟨granted, -⟩ | released := outcome
      · exact old lease (same ▸ member)
      · rw [granted] at member
        obtain rfl | ⟨-, before⟩ := OrderedMap.mem_entries_set.mp member
        · exact le_rfl
        · exact old lease before
      · rw [released] at member
        exact old lease (List.mem_filter.mp member).1
    · exact old lease member
  · rw [register_leaseNext taken] at known
    rw [opened, List.mem_append]
    split at known
    · rename_i here
      subst here
      obtain same | ⟨granted, cases⟩ | released := outcome
      · exact .inl (registered.opened _ leaseId (same ▸ known))
      · rw [granted] at known
        obtain rfl | before := OrderedMap.mem_keys_set.mp known
        · obtain ⟨method, -⟩ | ⟨expiresAt, found, -⟩ := cases
          · exact .inr (by simp [LeaseCall.opens, method])
          · have listed : call.connectionLeaseId ∈ (s.register call.apiKeyId).keys :=
              OrderedMap.get_isSome_iff.mp (by rw [found]; rfl)
            exact .inl (registered.opened _ _ listed)
        · exact .inl (registered.opened _ leaseId before)
      · rw [released] at known
        exact .inl (registered.opened _ leaseId (OrderedMap.mem_keys_delete.mp known).2)
    · exact .inl (registered.opened _ leaseId known)
  · rw [LeaseState.unexpired, register_leaseNext taken, now]
    split
    · rename_i here
      rw [here]
      exact size_outcome_le registered order
    · exact (size_unexpired_le s apiKeyId passes.1).trans (registered.quota apiKeyId)

/-! ## Leases that are gone -/

/-- The lease was opened, and has expired or been released since. -/
def LeaseState.Gone (s : LeaseState) (apiKeyId connectionLeaseId : String) : Prop :=
  connectionLeaseId ∈ s.opened ∧
    ∀ expiresAt, (s.register apiKeyId).get connectionLeaseId = some expiresAt → expiresAt ≤ s.now

/-- No call makes a lease live that is gone. -/
theorem gone_leaseNext {apiKeyId connectionLeaseId : String} (registered : Registered maximum s)
    (order : LeaseOrder maximum s call) (taken : leaseNext s call = some s')
    (gone : s.Gone apiKeyId connectionLeaseId) : s'.Gone apiKeyId connectionLeaseId := by
  obtain ⟨used, expired⟩ := gone
  have passes := order.1.1
  have now : s'.now = call.now := by rw [leaseNext_eq taken]
  refine ⟨by rw [leaseNext_eq taken]; exact List.mem_append_left _ used, fun expiresAt found => ?_⟩
  rw [register_leaseNext taken] at found
  rw [now]
  have before : ∀ expiresAt, (s.register apiKeyId).get connectionLeaseId = some expiresAt →
      expiresAt ≤ call.now := fun expiresAt known => (expired expiresAt known).trans passes
  split at found
  · rename_i here
    subst here
    obtain same | ⟨granted, cases⟩ | released := register_outcome registered order
    · exact before expiresAt (same ▸ found)
    · rw [granted, OrderedMap.get_set] at found
      split at found
      · rename_i own
        subst own
        obtain ⟨-, fresh, -⟩ | ⟨other, known, live⟩ := cases
        · exact absurd used fresh
        · exact absurd (before other known) (not_le.mpr live)
      · exact before expiresAt found
    · rw [released] at found
      exact before expiresAt (OrderedMap.get_of_get_delete found).2
  · exact before expiresAt found

end Step

/-! ## Whole runs -/

/-- What the limiter guarantees in a state of a run. -/
structure QuotaKept (maximum : String → ℕ) (s : LeaseState) : Prop where
  quota : ∀ apiKeyId now, s.now ≤ now → (s.unexpired apiKeyId now).size ≤ maximum apiKeyId
  tryOpen : ∀ call, LeaseOrder maximum s call → ∀ maxConnections,
    call.method = .tryOpen maxConnections →
      ((tryOpen maxConnections call (s.set call.apiKeyId)).2.ok = true ↔
        (s.unexpired call.apiKeyId call.now).size < maximum call.apiKeyId)
  refreshLease : ∀ call, LeaseOrder maximum s call →
    ((refreshLease call (s.set call.apiKeyId)).2 = true ↔ ∃ expiresAt,
      (s.register call.apiKeyId).get call.connectionLeaseId = some expiresAt ∧
        call.now < expiresAt)
  gone : ∀ apiKeyId connectionLeaseId, s.Gone apiKeyId connectionLeaseId →
    ∀ s', Reaches leaseNext (LeaseOrder maximum) s s' → s'.Gone apiKeyId connectionLeaseId
  expiry : ∀ apiKeyId now time, s.Passes now time → ∀ connectionLeaseId expiresAt,
    (s.register apiKeyId).get connectionLeaseId = some expiresAt → now < expiresAt →
      ((s.set apiKeyId).live time).zscore connectionLeaseId = some expiresAt

variable {maximum : String → ℕ} {s : LeaseState} {now time : ℤ}

theorem registered_of_reaches (run : Reaches leaseNext (LeaseOrder maximum) (.start now time) s) :
    Registered maximum s :=
  run.invariant ⟨fun _ => .empty, fun _ _ member => (nomatch member),
    fun _ _ member => (nomatch member), fun _ => Nat.zero_le _⟩
    fun _ _ _ registered order taken => registered_leaseNext registered order taken

/-- **The quota of leases holds in every run.** -/
theorem lease_quota (run : Reaches leaseNext (LeaseOrder maximum) (.start now time) s) :
    QuotaKept maximum s := by
  have registered := registered_of_reaches run
  refine ⟨fun apiKeyId now passes => ?_, fun call order maxConnections method => ?_,
    fun call order => refreshLease_iff registered order.1, fun apiKeyId leaseId gone s' later => ?_,
    fun apiKeyId now time passes leaseId expiresAt known live => ?_⟩
  · exact (size_unexpired_le s apiKeyId passes).trans (registered.quota apiKeyId)
  · have fresh := order.2
    rw [method] at fresh
    rw [← fresh.2]
    exact tryOpen_ok_iff registered order.1 maxConnections
  · induction later with
    | start => exact gone
    | step earlier order taken ih =>
        exact gone_leaseNext (registered_of_reaches (run.trans earlier)) order taken ih
  · have lead : time ≤ now + (time - now) := by omega
    obtain ⟨evicted, below, scores⟩ :=
      ((tracks_of_passes registered passes apiKeyId).live lead).scores
    rw [SortedSet.zscore, scores]
    exact OrderedMap.get_keepAbove.mpr ⟨known, lt_of_le_of_lt below live⟩

/-- A call on one API key, with a server whose clock is ahead. -/
def sampleLease (method : LeaseMethod) (connectionLeaseId : String) (now : ℤ) : LeaseCall where
  method := method
  apiKeyId := "key"
  connectionLeaseId := connectionLeaseId
  now := now
  time := now + 7

theorem lease_quota_sample : ∃ s : LeaseState,
    Reaches leaseNext (LeaseOrder fun _ => 2) (.start 0 7) s ∧
      (s.unexpired "key" s.now).entries = [("c", 180000)] ∧ s.Gone "key" "a" ∧
        QuotaKept (fun _ => 2) s := by
  obtain ⟨s, run, observed⟩ := exists_reachable_of_execute (admitted leaseNext
    (LeaseOrder fun _ => 2)) (LeaseState.start 0 7)
    [sampleLease (.tryOpen 2) "a" 0, sampleLease (.tryOpen 2) "b" 10,
      sampleLease (.tryOpen 2) "d" 20, sampleLease .releaseLease "b" 89999,
      sampleLease (.tryOpen 2) "c" 90000, sampleLease .refreshLease "a" 90000]
    (fun s => decide ((s.unexpired "key" s.now).entries = [("c", 180000)] ∧ "a" ∈ s.opened ∧
      (s.register "key").get "a" = some 90000 ∧ s.now = 90000)) (by decide +kernel)
  have run := Reaches.of_admitted run
  obtain ⟨live, opened, expired, now⟩ := of_decide_eq_true observed
  refine ⟨s, run, live, ⟨opened, fun expiresAt known => ?_⟩, lease_quota run⟩
  rw [← Option.some.inj (expired.symm.trans known), now]

end EliteHubVault
