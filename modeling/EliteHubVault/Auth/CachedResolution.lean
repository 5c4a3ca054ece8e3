import EliteHubVault.Auth.ApiKeyResolver
import EliteHubVault.Auth.RecordText

/-!
# Cached resolution agrees with the database

While the database does not change, every answer that a call has got and every record in flight
is what the database says. So the caches stay coherent, and a call returns what a plain lookup
returns, unless a cache read or the lookup that it made was rejected (`resolution_agrees`).
Calls of any number of processes may interleave.
-/

set_option autoImplicit false

namespace EliteHubVault

open Library

/-! ## The plain lookup -/

/-- The active database record of a public id. -/
def activeRecord (apiKeys : List ApiKeyRow) (publicId : String) : Option ApiKeyCacheRecord :=
  (lookupApiKeyRecord apiKeys publicId).filter fun record => record.isActive

/-- What a key resolves to without caches and failures. -/
def plainLookup (hashApiKeySecret : String → String) (apiKeys : List ApiKeyRow) :
    Option String → ApiConsumerResolution
  | none => .ok .anonymous
  | some rawApiKey =>
      if rawApiKey = "" then .ok .anonymous
      else
        match parseOpaqueApiKey rawApiKey with
        | none => .invalidApiKey
        | some parsedApiKey =>
            match activeRecord apiKeys parsedApiKey.publicId with
            | none => .invalidApiKey
            | some record =>
                if record.secretHash = hashApiKeySecret parsedApiKey.secret then
                  .ok (.apiKey record.consumer)
                else .invalidApiKey

/-- The entries of Redis agree with the database. -/
def RedisCoherent (codec : RecordCodec) (apiKeys : List ApiKeyRow) (key text : String) : Prop :=
  (∀ publicId, key = toCacheKey publicId → ∀ record, codec.parse text = some record →
    activeRecord apiKeys publicId = some record) ∧
  ∀ publicId, key = toNegativeCacheKey publicId → activeRecord apiKeys publicId = none

/-- The caches agree with the database. -/
structure AuthState.Coherent (codec : RecordCodec) (s : AuthState) : Prop where
  localCache : ∀ process, (s.localCache process).Serves
    (fun publicId record => activeRecord s.apiKeys publicId = some record) s.now
  redis : s.redis.Serves (RedisCoherent codec s.apiKeys) s.now

/-- The steps of the script. -/
def AuthState.Action.OfScript (a : AuthState.Action) : Prop :=
  a = .updateRow ∨ a = .deleteKeys ∨ a = .finishScript ∨ a = .throwScript

instance (a : AuthState.Action) : Decidable a.OfScript := inferInstanceAs (Decidable (_ ∨ _))

/-- The steps of one call. -/
def AuthState.Action.OfCall (index : ℕ) : AuthState.Action → Prop
  | .answer call _ => call = index
  | .resume call => call = index
  | _ => False

section Lookup

variable {hashApiKeySecret : String → String} {apiKeys : List ApiKeyRow} {publicId secret : String}
  {record : ApiKeyCacheRecord}

theorem lookup_of_active (active : activeRecord apiKeys publicId = some record) :
    lookupApiKeyRecord apiKeys publicId = some record ∧ record.isActive = true :=
  Option.filter_eq_some_iff.mp active

/-- A key that is parsed is not missing. -/
theorem exists_raw {rawApiKey : Option String} {key : ParsedOpaqueApiKey}
    (parsed : rawApiKey.bind parseOpaqueApiKey = some key) :
    ∃ raw, rawApiKey = some raw ∧ raw ≠ "" ∧ parseOpaqueApiKey raw = some key := by
  obtain ⟨raw, rfl, parses⟩ := Option.bind_eq_some_iff.mp parsed
  refine ⟨raw, rfl, ?_, parses⟩
  rintro rfl
  have nothing : parseOpaqueApiKey "" = none := by decide
  cases nothing.symm.trans parses

/-- A record that is validated gives what the plain lookup gives. -/
theorem validate_active {rawApiKey : Option String}
    (parsed : rawApiKey.bind parseOpaqueApiKey = some ⟨publicId, secret⟩)
    (active : activeRecord apiKeys publicId = some record) :
    validateRecord record (hashApiKeySecret secret) =
      plainLookup hashApiKeySecret apiKeys rawApiKey := by
  obtain ⟨raw, rfl, present, key⟩ := exists_raw parsed
  simp only [plainLookup, if_neg present, key, active]
  by_cases same : record.secretHash = hashApiKeySecret secret
  · rw [if_pos same]
    exact validateRecord_eq_ok.mpr ⟨(lookup_of_active active).2, same, rfl⟩
  · rw [if_neg same]
    have different : timingSafeEqualHex (hashApiKeySecret secret) record.secretHash = false :=
      Bool.eq_false_iff.mpr fun equal => same (timingSafeEqualHex_iff.mp equal).symm
    rw [validateRecord, if_pos (.inr different)]

theorem plainLookup_of_missing {rawApiKey : Option String}
    (parsed : rawApiKey.bind parseOpaqueApiKey = some ⟨publicId, secret⟩)
    (missing : activeRecord apiKeys publicId = none) :
    plainLookup hashApiKeySecret apiKeys rawApiKey = .invalidApiKey := by
  obtain ⟨raw, rfl, present, key⟩ := exists_raw parsed
  simp only [plainLookup, if_neg present, key, missing]

/-- **The plain lookup accepts a key exactly when its record is active and has the hash of its
secret.** -/
theorem plainLookup_eq_ok {key : ParsedOpaqueApiKey} (wellFormed : key.WellFormed)
    {consumer : ApiConsumer} :
    plainLookup hashApiKeySecret apiKeys (some (apiKeyText key)) = .ok consumer ↔
      ∃ record, activeRecord apiKeys key.publicId = some record ∧
        record.secretHash = hashApiKeySecret key.secret ∧ consumer = .apiKey record.consumer := by
  have parsed := parse_apiKeyText wellFormed
  have parsedRaw : (some (apiKeyText key)).bind parseOpaqueApiKey = some ⟨key.publicId, key.secret⟩ :=
    parsed
  cases found : activeRecord apiKeys key.publicId with
  | none =>
      rw [plainLookup_of_missing parsedRaw found]
      simp
  | some record =>
      rw [← validate_active parsedRaw found, validateRecord_eq_ok]
      have active := (lookup_of_active found).2
      simp [active]

end Lookup

/-! ## What a call knows -/

/-- What a call awaits or has got agrees with the database, and tells whether a read or a lookup
was rejected. -/
def AnswerSound (codec : RecordCodec) (apiKeys : List ApiKeyRow) (publicId : String)
    (failed : Bool) : Awaited → Prop
  | .negativeCache | .redisCache | .lookup => failed = false
  | .negativeCacheValue none | .redisCachedValue none | .record none => failed = true
  | .negativeCacheValue (some value) =>
      failed = false ∧ (value.isSome → activeRecord apiKeys publicId = none)
  | .redisCachedValue (some value) =>
      failed = false ∧ ∀ record, value.bind codec.parse = some record →
        activeRecord apiKeys publicId = some record
  | .record (some record) => failed = false ∧ record = lookupApiKeyRecord apiKeys publicId
  | .cacheMissingPublicId | .cachedMissingPublicId =>
      failed = false ∧ activeRecord apiKeys publicId = none

/-- A call that is suspended knows its key, and one that has returned gave the verdict. -/
def PhaseSound (codec : RecordCodec) (hashApiKeySecret : String → String)
    (apiKeys : List ApiKeyRow) (rawApiKey : Option String) (failed : Bool) : ResolvePhase → Prop
  | .awaits publicId computedSecretHash awaited =>
      (∃ secret, rawApiKey.bind parseOpaqueApiKey = some ⟨publicId, secret⟩ ∧
        computedSecretHash = hashApiKeySecret secret) ∧
      AnswerSound codec apiKeys publicId failed awaited
  | .returned resolution => resolution =
      if failed then .serviceUnavailable else plainLookup hashApiKeySecret apiKeys rawApiKey

section Sound

variable {codec : RecordCodec} {hashApiKeySecret : String → String} {apiKeys : List ApiKeyRow}
  {s s' : AuthState} {publicId computedSecretHash : String} {failed fails : Bool}
  {awaited answered : Awaited}

/-- What coherent stores answer is sound. -/
theorem answer_sound (coherent : s.Coherent codec)
    (sound : AnswerSound codec s.apiKeys publicId failed awaited)
    (answers : s.answerOf publicId fails awaited = some answered) :
    AnswerSound codec s.apiKeys publicId
      (failed || (fails && decide (awaited ≠ .cacheMissingPublicId))) answered := by
  cases awaited with
  | negativeCache =>
      obtain rfl := Option.some.inj answers
      obtain rfl : failed = false := sound
      cases fails with
      | true => rfl
      | false =>
          refine ⟨rfl, fun present => ?_⟩
          obtain ⟨text, cached⟩ := Option.isSome_iff_exists.mp present
          exact (coherent.redis _ text cached).2 publicId rfl
  | redisCache =>
      obtain rfl := Option.some.inj answers
      obtain rfl : failed = false := sound
      cases fails with
      | true => rfl
      | false =>
          refine ⟨rfl, fun record parses => ?_⟩
          obtain ⟨text, cached, parses⟩ := Option.bind_eq_some_iff.mp parses
          exact (coherent.redis _ text cached).1 publicId rfl record parses
  | lookup =>
      obtain rfl := Option.some.inj answers
      obtain rfl : failed = false := sound
      cases fails with
      | true => rfl
      | false => exact ⟨rfl, rfl⟩
  | cacheMissingPublicId =>
      obtain rfl := Option.some.inj answers
      obtain ⟨rfl, missing⟩ := sound
      refine ⟨?_, missing⟩
      simp
  | negativeCacheValue | redisCachedValue | record | cachedMissingPublicId => cases answers

/-- What a call does with a sound answer: the records that it stores are the database's, and its
next phase is sound. -/
theorem continuation_sound {rawApiKey : Option String} {next : Continuation}
    (sound : PhaseSound codec hashApiKeySecret apiKeys rawApiKey failed
      (.awaits publicId computedSecretHash awaited))
    (goesOn : continuation codec publicId computedSecretHash awaited = some next) :
    (∀ record, next.stores = some record → activeRecord apiKeys publicId = some record) ∧
      (∀ record, next.caches = some record → activeRecord apiKeys publicId = some record) ∧
      PhaseSound codec hashApiKeySecret apiKeys rawApiKey failed next.phase := by
  obtain ⟨⟨secret, parsed, rfl⟩, sound⟩ := sound
  cases awaited with
  | negativeCacheValue value =>
      cases value with
      | none =>
          obtain rfl := Option.some.inj goesOn
          obtain rfl : failed = true := sound
          exact ⟨nofun, nofun, rfl⟩
      | some value =>
          obtain ⟨rfl, known⟩ := sound
          simp only [continuation] at goesOn
          split at goesOn
          · rename_i present
            obtain rfl := Option.some.inj goesOn
            have missing := known (Option.isSome_of_any present)
            exact ⟨nofun, nofun, (plainLookup_of_missing parsed missing).symm⟩
          · obtain rfl := Option.some.inj goesOn
            exact ⟨nofun, nofun, ⟨secret, parsed, rfl⟩, rfl⟩
  | redisCachedValue value =>
      cases value with
      | none =>
          obtain rfl := Option.some.inj goesOn
          obtain rfl : failed = true := sound
          exact ⟨nofun, nofun, rfl⟩
      | some value =>
          obtain ⟨rfl, known⟩ := sound
          simp only [continuation] at goesOn
          split at goesOn
          · rename_i cachedRecord cached
            obtain rfl := Option.some.inj goesOn
            obtain ⟨text, present, parses⟩ := Option.bind_eq_some_iff.mp cached
            have active : activeRecord apiKeys publicId = some cachedRecord :=
              known cachedRecord (Option.bind_eq_some_iff.mpr
                ⟨text, (Option.filter_eq_some_iff.mp present).1, parses⟩)
            refine ⟨fun record stored => ?_, nofun, validate_active parsed active⟩
            rw [active, Option.some.inj stored]
          · obtain rfl := Option.some.inj goesOn
            exact ⟨nofun, nofun, ⟨secret, parsed, rfl⟩, rfl⟩
  | record value =>
      cases value with
      | none =>
          obtain rfl := Option.some.inj goesOn
          obtain rfl : failed = true := sound
          exact ⟨nofun, nofun, rfl⟩
      | some value =>
          obtain ⟨rfl, rfl⟩ := sound
          simp only [continuation] at goesOn
          split at goesOn
          · rename_i missing
            obtain rfl := Option.some.inj goesOn
            exact ⟨nofun, nofun, ⟨secret, parsed, rfl⟩, rfl, missing⟩
          · rename_i record active
            obtain rfl := Option.some.inj goesOn
            refine ⟨fun other stored => ?_, fun other cached => ?_, validate_active parsed active⟩
            · rw [← Option.some.inj stored]
              exact active
            · rw [← Option.some.inj cached]
              exact active
  | cachedMissingPublicId =>
      obtain rfl := Option.some.inj goesOn
      obtain ⟨rfl, missing⟩ := sound
      exact ⟨nofun, nofun, (plainLookup_of_missing parsed missing).symm⟩
  | negativeCache | redisCache | lookup | cacheMissingPublicId => cases goesOn

/-- `resolve`, up to its end or its first `await`, in coherent caches. -/
theorem resolvePhase_sound (coherent : s.Coherent codec) (process : ℕ)
    (rawApiKey : Option String) : PhaseSound codec hashApiKeySecret s.apiKeys rawApiKey false
      (s.resolvePhase hashApiKeySecret process rawApiKey) := by
  rw [AuthState.resolvePhase]
  split
  · rename_i missing
    cases rawApiKey with
    | none => rfl
    | some raw =>
        obtain rfl : raw = "" := by simpa [Option.filter_eq_none_iff] using missing
        rfl
  · rename_i raw present
    obtain ⟨rfl, filled⟩ := Option.filter_eq_some_iff.mp present
    have nonempty : raw ≠ "" := of_decide_eq_true filled
    split
    · rename_i unparsable
      simp only [PhaseSound, plainLookup, if_neg nonempty, unparsable, Bool.false_eq_true, if_false]
    · rename_i key parsed
      have whole : (some raw).bind parseOpaqueApiKey = some ⟨key.publicId, key.secret⟩ := parsed
      dsimp only
      split
      · rename_i record cached
        have active : activeRecord s.apiKeys key.publicId = some record :=
          coherent.localCache process key.publicId record cached
        exact validate_active whole active
      · exact ⟨⟨key.secret, whole, rfl⟩, rfl⟩

end Sound

/-! ## Whole runs -/

/-- Everything that a call could read agrees with the database. -/
structure AuthState.Sound (codec : RecordCodec) (hashApiKeySecret : String → String)
    (apiKeys : List ApiKeyRow) (s : AuthState) : Prop where
  unchanged : s.apiKeys = apiKeys
  coherent : s.Coherent codec
  inFlight : ∀ record ∈ s.inFlight, activeRecord apiKeys record.publicId = some record
  calls : ∀ call ∈ s.calls,
    PhaseSound codec hashApiKeySecret apiKeys call.rawApiKey call.failed call.phase

section Steps

variable {codec : RecordCodec} {hashApiKeySecret : String → String}
  {options : UpdateApiKeyCliOptions} {apiKeys : List ApiKeyRow} {s s' : AuthState}

/-- A list whose members keep a property when one of them is replaced. -/
theorem forall_mem_set {α : Type*} {p : α → Prop} {items : List α} {index : ℕ} {item : α}
    (kept : ∀ other ∈ items, p other) (new : p item) : ∀ other ∈ items.set index item, p other := by
  intro other member
  obtain old | rfl := List.mem_or_eq_of_mem_set member
  · exact kept other old
  · exact new

theorem AuthState.Sound.answer {index : ℕ} {fails : Bool}
    (sound : s.Sound codec hashApiKeySecret apiKeys) (taken : s.answer index fails = some s') :
    s'.Sound codec hashApiKeySecret apiKeys := by
  obtain ⟨process, rawApiKey, publicId, hash, awaited, failed, answered, call, answers, rfl⟩ :=
    AuthState.answer_eq_some taken
  obtain ⟨rfl, coherent, inFlight, calls⟩ := sound
  obtain ⟨known, before⟩ := calls _ (List.mem_of_getElem? call)
  refine ⟨rfl, ⟨coherent.localCache, ?_⟩, inFlight,
    forall_mem_set calls ⟨known, answer_sound coherent before answers⟩⟩
  dsimp only
  split
  · rename_i writes
    rw [writes.1] at before
    refine coherent.redis.set ⟨fun other same => absurd same.symm (toCacheKey_ne _ _),
      fun other same => ?_⟩
    rw [← toNegativeCacheKey_injective same]
    exact before.2
  · exact coherent.redis

theorem AuthState.Sound.resume {index : ℕ} (sound : s.Sound codec hashApiKeySecret apiKeys)
    (taken : s.resume codec index = some s') : s'.Sound codec hashApiKeySecret apiKeys := by
  obtain ⟨process, rawApiKey, publicId, hash, awaited, failed, next, call, goesOn, rfl⟩ :=
    AuthState.resume_eq_some taken
  obtain ⟨rfl, coherent, inFlight, calls⟩ := sound
  obtain ⟨stores, caches, phase⟩ :=
    continuation_sound (calls _ (List.mem_of_getElem? call)) goesOn
  refine ⟨rfl, ⟨fun other key record served => ?_, coherent.redis⟩, fun record member => ?_,
    forall_mem_set calls phase⟩
  · obtain ⟨entry, found, rfl⟩ := ExpiringStore.get_eq_some.mp served
    obtain ⟨-, rfl, stored, storing, rfl⟩ | old := AuthState.entry_setLocal found
    · exact stores stored storing
    · exact coherent.localCache other key _ (ExpiringStore.get_eq_some.mpr ⟨entry, old, rfl⟩)
  · obtain old | new := List.mem_append.mp member
    · exact inFlight record old
    · have active := caches record (Option.mem_toList.mp new)
      rw [publicId_of_lookup (lookup_of_active active).1]
      exact active

theorem AuthState.Sound.land {position : ℕ} (sound : s.Sound codec hashApiKeySecret apiKeys)
    (taken : s.land codec position = some s') : s'.Sound codec hashApiKeySecret apiKeys := by
  obtain ⟨record, sent, rfl⟩ := AuthState.land_eq_some taken
  obtain ⟨rfl, coherent, inFlight, calls⟩ := sound
  refine ⟨rfl, ⟨coherent.localCache, coherent.redis.set ⟨fun publicId same other parses => ?_,
    fun publicId same => absurd same (toCacheKey_ne _ _)⟩⟩,
    fun other member => inFlight other (List.mem_of_mem_eraseIdx member), calls⟩
  have sameRecord := Option.some.inj ((codec.parse_stringify record).symm.trans parses)
  rw [← toCacheKey_injective same, ← sameRecord]
  exact inFlight record (List.mem_of_getElem? sent)

/-- **Every step other than the script's keeps what is known in agreement with the database.** -/
theorem AuthState.Sound.next {a : AuthState.Action} (sound : s.Sound codec hashApiKeySecret apiKeys)
    (other : ¬ a.OfScript) (taken : s.next codec hashApiKeySecret options a = some s') :
    s'.Sound codec hashApiKeySecret apiKeys := by
  cases a with
  | resolve process rawApiKey =>
      obtain rfl := Option.some.inj taken
      obtain ⟨rfl, coherent, inFlight, calls⟩ := sound
      refine ⟨rfl, ⟨coherent.localCache, coherent.redis⟩, inFlight, fun call member => ?_⟩
      obtain old | rfl := List.mem_append.mp member |>.imp_right List.mem_singleton.mp
      · exact calls call old
      · exact resolvePhase_sound coherent process rawApiKey
  | answer index fails => exact sound.answer taken
  | resume index => exact sound.resume taken
  | land position => exact sound.land taken
  | lose position =>
      obtain rfl := AuthState.lose_eq_some taken
      exact ⟨sound.unchanged, ⟨sound.coherent.localCache, sound.coherent.redis⟩,
        fun record member => sound.inFlight record (List.mem_of_mem_eraseIdx member), sound.calls⟩
  | evictLocal process publicId =>
      obtain rfl := Option.some.inj taken
      refine ⟨sound.unchanged, ⟨fun other key record served => ?_, sound.coherent.redis⟩,
        sound.inFlight, sound.calls⟩
      obtain ⟨entry, found, rfl⟩ := ExpiringStore.get_eq_some.mp served
      exact sound.coherent.localCache other key _
        (ExpiringStore.get_eq_some.mpr ⟨entry, AuthState.entry_evictLocal found, rfl⟩)
  | evictRedis key =>
      obtain rfl := Option.some.inj taken
      exact ⟨sound.unchanged, ⟨sound.coherent.localCache, sound.coherent.redis.delete⟩,
        sound.inFlight, sound.calls⟩
  | wait elapsed =>
      obtain rfl := Option.some.inj taken
      have passes : s.now ≤ s.now + elapsed := Nat.le_add_right _ _
      exact ⟨sound.unchanged, ⟨fun process => (sound.coherent.localCache process).mono passes,
        sound.coherent.redis.mono passes⟩, sound.inFlight, sound.calls⟩
  | updateRow | deleteKeys | finishScript | throwScript =>
      exact absurd (by simp [AuthState.Action.OfScript]) other

/-! ## Calls return -/

/-- The steps that a call still has to take. -/
def ResolvePhase.stepsLeft : ResolvePhase → ℕ
  | .awaits _ _ .negativeCache => 8
  | .awaits _ _ (.negativeCacheValue _) => 7
  | .awaits _ _ .redisCache => 6
  | .awaits _ _ (.redisCachedValue _) => 5
  | .awaits _ _ .lookup => 4
  | .awaits _ _ (.record _) => 3
  | .awaits _ _ .cacheMissingPublicId => 2
  | .awaits _ _ .cachedMissingPublicId => 1
  | .returned _ => 0

theorem stepsLeft_answer {publicId hash : String} {fails : Bool} {awaited answered : Awaited}
    (answers : s.answerOf publicId fails awaited = some answered) :
    (ResolvePhase.awaits publicId hash answered).stepsLeft <
      (ResolvePhase.awaits publicId hash awaited).stepsLeft := by
  cases awaited with
  | negativeCache | redisCache | lookup | cacheMissingPublicId =>
      obtain rfl := Option.some.inj answers
      simp [ResolvePhase.stepsLeft]
  | negativeCacheValue | redisCachedValue | record | cachedMissingPublicId => cases answers

theorem stepsLeft_continuation {publicId hash : String} {awaited : Awaited} {next : Continuation}
    (goesOn : continuation codec publicId hash awaited = some next) :
    next.phase.stepsLeft < (ResolvePhase.awaits publicId hash awaited).stepsLeft := by
  cases awaited with
  | negativeCacheValue value | redisCachedValue value | record value =>
      cases value with
      | none =>
          obtain rfl := Option.some.inj goesOn
          simp [ResolvePhase.stepsLeft]
      | some value =>
          simp only [continuation] at goesOn
          split at goesOn
          · obtain rfl := Option.some.inj goesOn
            simp [ResolvePhase.stepsLeft]
          · obtain rfl := Option.some.inj goesOn
            simp [ResolvePhase.stepsLeft]
  | cachedMissingPublicId =>
      obtain rfl := Option.some.inj goesOn
      simp [ResolvePhase.stepsLeft]
  | negativeCache | redisCache | lookup | cacheMissingPublicId => cases goesOn

/-- What a suspended call awaits can be answered, or it can go on. -/
theorem answers_or_goesOn (codec : RecordCodec) (s : AuthState) (publicId hash : String)
    (awaited : Awaited) : (∃ answered, s.answerOf publicId false awaited = some answered) ∨
      ∃ next, continuation codec publicId hash awaited = some next := by
  cases awaited with
  | negativeCache | redisCache | lookup | cacheMissingPublicId => exact .inl ⟨_, rfl⟩
  | negativeCacheValue value | redisCachedValue value | record value =>
      refine .inr ?_
      cases value with
      | none => exact ⟨_, rfl⟩
      | some value =>
          simp only [continuation]
          split
          · exact ⟨_, rfl⟩
          · exact ⟨_, rfl⟩
  | cachedMissingPublicId => exact .inr ⟨_, rfl⟩

/-- A suspended call can take a step, after which fewer are left. -/
theorem exists_step_of_call {index : ℕ} {call : ResolveCall} (started : s.calls[index]? = some call)
    (suspended : call.phase.stepsLeft ≠ 0) :
    ∃ a s', a.OfCall index ∧ s.next codec hashApiKeySecret options a = some s' ∧
      ∃ call', s'.calls[index]? = some call' ∧ call'.phase.stepsLeft < call.phase.stepsLeft := by
  obtain ⟨process, rawApiKey, phase, failed⟩ := call
  cases phase with
  | returned resolution => exact absurd rfl suspended
  | awaits publicId hash awaited =>
      have bound : index < s.calls.length := (List.getElem?_eq_some_iff.mp started).1
      obtain ⟨answered, answers⟩ | ⟨next, goesOn⟩ :=
        answers_or_goesOn codec s publicId hash awaited
      · obtain ⟨s', taken⟩ : ∃ s', s.answer index false = some s' := by
          simp [AuthState.answer, started, answers]
        obtain ⟨_, _, _, _, _, _, _, same, answers, rfl⟩ := AuthState.answer_eq_some taken
        cases started.symm.trans same
        exact ⟨.answer index false, _, rfl, taken, _, List.getElem?_set_self bound,
          stepsLeft_answer answers⟩
      · obtain ⟨s', taken⟩ : ∃ s', s.resume codec index = some s' := by
          simp [AuthState.resume, started, goesOn]
        obtain ⟨_, _, _, _, _, _, _, same, goesOn, rfl⟩ := AuthState.resume_eq_some taken
        cases started.symm.trans same
        exact ⟨.resume index, _, rfl, taken, _, List.getElem?_set_self bound,
          stepsLeft_continuation goesOn⟩

/-- **Every call returns**: its own steps are always possible and come to an end. -/
theorem exists_return {index : ℕ} {call : ResolveCall} (started : s.calls[index]? = some call) :
    ∃ s', Reaches (AuthState.next codec hashApiKeySecret options) (fun _ a => a.OfCall index) s s' ∧
      ∃ call' resolution, s'.calls[index]? = some call' ∧ call'.phase = .returned resolution := by
  induction left : call.phase.stepsLeft using Nat.strong_induction_on generalizing s call with
  | _ n ih =>
      by_cases finished : call.phase.stepsLeft = 0
      · refine ⟨s, .start, call, ?_⟩
        obtain ⟨process, rawApiKey, phase, failed⟩ := call
        cases phase with
        | returned resolution => exact ⟨resolution, started, rfl⟩
        | awaits publicId hash awaited => cases awaited <;> cases finished
      · have step : ∃ a s', a.OfCall index ∧ s.next codec hashApiKeySecret options a = some s' ∧
            ∃ call', s'.calls[index]? = some call' ∧
              call'.phase.stepsLeft < call.phase.stepsLeft := exists_step_of_call started finished
        obtain ⟨a, s', own, taken, call', kept, fewer⟩ := step
        obtain ⟨t, later, returned⟩ := ih _ (left ▸ fewer) kept rfl
        have first : Reaches (AuthState.next codec hashApiKeySecret options)
            (fun _ a => a.OfCall index) s s' := Reaches.start.step own taken
        exact ⟨t, first.trans later, returned⟩

end Steps

/-- What the resolver guarantees in a state of a run over an unchanging database. -/
structure AgreesWithDatabase (codec : RecordCodec) (hashApiKeySecret : String → String)
    (options : UpdateApiKeyCliOptions) (apiKeys : List ApiKeyRow) (s : AuthState) : Prop where
  unchanged : s.apiKeys = apiKeys
  coherent : s.Coherent codec
  verdict : ∀ call ∈ s.calls, ∀ resolution, call.phase = .returned resolution →
    resolution = if call.failed then .serviceUnavailable
      else plainLookup hashApiKeySecret apiKeys call.rawApiKey
  returns : ∀ index < s.calls.length, ∃ s',
    Reaches (AuthState.next codec hashApiKeySecret options) (fun _ a => a.OfCall index) s s' ∧
      ∃ call resolution, s'.calls[index]? = some call ∧ call.phase = .returned resolution

/-- **Cached resolution agrees with the database.** -/
theorem resolution_agrees {codec : RecordCodec} {hashApiKeySecret : String → String}
    {options : UpdateApiKeyCliOptions} {start s : AuthState} (coherent : start.Coherent codec)
    (idle : start.calls = [] ∧ start.inFlight = [])
    (run : Reaches (AuthState.next codec hashApiKeySecret options) (fun _ a => ¬ a.OfScript)
      start s) :
    AgreesWithDatabase codec hashApiKeySecret options start.apiKeys s := by
  have sound : s.Sound codec hashApiKeySecret start.apiKeys := by
    refine run.invariant ⟨rfl, coherent, ?_, ?_⟩ fun _ _ _ sound other taken => sound.next other taken
    · rw [idle.2]
      exact fun record member => (nomatch member)
    · rw [idle.1]
      exact fun call member => (nomatch member)
  refine ⟨sound.unchanged, sound.coherent, fun call member resolution returned => ?_,
    fun index bound => exists_return (List.getElem?_eq_getElem bound)⟩
  have verdict := sound.calls call member
  rw [returned] at verdict
  exact verdict

/-- The hashes of two secrets. -/
def sampleHash (secret : String) : String :=
  if secret = "secret-1" then
    "8825ce3187bf4403c4d81ec4107698cf985d59b85da7ed3726c47d094af88ff3"
  else if secret = "wrong-secret" then
    "11cac86fc2b306936abbefbe0b30b8cce27606cd27d4571cc4b61f0d1d0ca7bf"
  else ""

/-- The row of a key whose secret is `secret-1`. -/
def sampleApiKey : ApiKeyRow where
  id := "key-1"
  name := "Key One"
  publicId := "pub1"
  secretHash := "8825ce3187bf4403c4d81ec4107698cf985d59b85da7ed3726c47d094af88ff3"
  isActive := true
  rpmLimit := 90
  maxSseConnections := 4

def sampleConsumer : ApiConsumer := .apiKey ⟨"key-1", "pub1", "Key One", 90, 4⟩

/-- One active key, and nothing cached. -/
def sampleAuthState : AuthState where
  apiKeys := [sampleApiKey]
  redis := .empty
  localCache := fun _ => .empty
  calls := []
  inFlight := []
  script := .ready
  now := 0

/-- Take the key out of use. -/
def sampleOptions : UpdateApiKeyCliOptions := ⟨"pub1", ⟨none, none, none, some false⟩⟩

theorem resolution_agrees_sample : ∃ s : AuthState,
    s.calls.map ResolveCall.phase =
      [.returned (.ok sampleConsumer), .returned .invalidApiKey, .returned .serviceUnavailable,
        .returned (.ok .anonymous), .returned .invalidApiKey] ∧
      AgreesWithDatabase RecordText.codec sampleHash sampleOptions [sampleApiKey] s := by
  have coherent : sampleAuthState.Coherent RecordText.codec :=
    ⟨fun _ _ _ served => (nomatch served), fun _ _ served => (nomatch served)⟩
  obtain ⟨s, run, observed⟩ := exists_reachable_of_execute
    (admitted (AuthState.next RecordText.codec sampleHash sampleOptions) fun _ a => ¬ a.OfScript)
    sampleAuthState
    [.resolve 0 (some "eh_live_pub1_secret-1"), .answer 0 false, .resume 0, .answer 0 false,
      .resume 0, .answer 0 false, .resume 0, .land 0,
      .resolve 1 (some "eh_live_pub1_wrong-secret"), .answer 1 false, .resume 1, .answer 1 false,
      .resume 1, .wait 30001,
      .resolve 0 (some "eh_live_pub1_secret-1"), .answer 2 true, .resume 2,
      .resolve 0 none, .resolve 1 (some "eh_live_pub1")]
    (fun s => decide (s.calls.map ResolveCall.phase =
      [.returned (.ok sampleConsumer), .returned .invalidApiKey, .returned .serviceUnavailable,
        .returned (.ok .anonymous), .returned .invalidApiKey])) (by decide +kernel)
  exact ⟨s, of_decide_eq_true observed, resolution_agrees coherent ⟨rfl, rfl⟩ (.of_admitted run)⟩

end EliteHubVault
