import EliteHubVault.Auth.CachedResolution

/-!
# Revocation of an API key

The script takes a key out of use in the database and then deletes its two Redis entries. From
then on the database says that the key is inactive, and Redis has no positive entry of it. A call
that has read the record before may still put it into a local cache, and a write of the record
may still be in flight: when it lands, every process reads the old record from Redis
(`late_write_revives_key`). A revoked key stays revoked in the runs in which this does not
happen (`revoked_stays_revoked`).
-/

set_option autoImplicit false

namespace EliteHubVault

open Library

/-! ## The property -/

/-- The Redis entries are deleted. -/
def UpdatePhase.hasCleared : UpdatePhase → Bool
  | .cleared | .finished _ => true
  | _ => false

def UpdatePhase.hasFinished : UpdatePhase → Bool
  | .finished _ => true
  | _ => false

/-- Before the script and any call. The caches are arbitrary. -/
structure AuthState.Initial (s : AuthState) : Prop where
  calls : s.calls = []
  inFlight : s.inFlight = []
  script : s.script = .ready
  written : ∀ process publicId stored, (s.localCache process).entry s.now publicId = some stored →
    stored.storedAt ≤ s.now

/-- The local entries of a public id that were written by a time have expired. -/
def AuthState.LocalExpired (publicId : String) (time : ℕ) (s : AuthState) : Prop :=
  ∀ process stored, (s.localCache process).entry s.now publicId = some stored →
    time < stored.storedAt

/-- A call with a key of the public id. -/
def ResolveCall.IsFor (publicId : String) (call : ResolveCall) : Prop :=
  ∃ secret, call.rawApiKey.bind parseOpaqueApiKey = some ⟨publicId, secret⟩

/-- When the script has finished and the local entries from before have expired, no call that
starts then accepts the key. -/
def StaysRevoked (codec : RecordCodec) (hashApiKeySecret : String → String)
    (options : UpdateApiKeyCliOptions) (guard : AuthState → AuthState.Action → Prop) : Prop :=
  ∀ start s finishedAt, start.Initial →
    Reaches (AuthState.next codec hashApiKeySecret options) guard start s →
      s.script = .finished finishedAt → s.LocalExpired options.publicId finishedAt →
        ∀ s', Reaches (AuthState.next codec hashApiKeySecret options) guard s s' →
          ∀ index call, s.calls.length ≤ index → s'.calls[index]? = some call →
            call.IsFor options.publicId → ∀ consumer, call.phase ≠ .returned (.ok consumer)

/-- The public id and the record that a call puts into the local cache when it goes on. -/
def AuthState.storing (codec : RecordCodec) (index : ℕ) (s : AuthState) :
    Option (String × ApiKeyCacheRecord) :=
  match s.calls[index]? with
  | some ⟨_, _, .awaits publicId computedSecretHash awaited, _⟩ =>
      (continuation codec publicId computedSecretHash awaited).bind fun next =>
        next.stores.map fun record => (publicId, record)
  | _ => none

/-- No old record is cached late: once the entries are deleted no write of a record of the public
id lands, and once the script has finished no call puts an active one into a local cache. -/
def Timely (codec : RecordCodec) (publicId : String) (s : AuthState) : AuthState.Action → Prop
  | .land position => s.script.hasCleared = true →
      ∀ record ∈ s.inFlight[position]?, record.publicId ≠ publicId
  | .resume index => s.script.hasFinished = true →
      ∀ stored ∈ s.storing codec index, stored.1 = publicId → stored.2.isActive = false
  | _ => True

instance (codec : RecordCodec) (publicId : String) (s : AuthState) :
    (a : AuthState.Action) → Decidable (Timely codec publicId s a)
  | .land _ => inferInstanceAs (Decidable (_ → _))
  | .resume _ => inferInstanceAs (Decidable (_ → _))
  | .resolve _ _ | .answer _ _ | .lose _ | .updateRow | .deleteKeys | .finishScript
  | .throwScript | .evictLocal _ _ | .evictRedis _ | .wait _ => isTrue trivial

/-! ## The database and Redis -/

/-- The update takes the key out of use. -/
theorem activeRecord_update {options : UpdateApiKeyCliOptions}
    (revokes : options.updates.isActive = some false) (apiKeys : List ApiKeyRow) :
    activeRecord (apiKeys.map fun row =>
      if row.publicId = options.publicId then options.updates.apply row else row)
        options.publicId = none := by
  refine Option.filter_eq_none_iff.mpr fun record found => ?_
  simp only [lookupApiKeyRecord, List.find?_map] at found
  split at found
  · cases found
  · rename_i updated here
    obtain ⟨row, first, rfl⟩ := Option.map_eq_some_iff.mp here
    have own := List.find?_some first
    have named : row.publicId = options.publicId := by
      by_contra other
      simp [other] at own
    rw [if_pos named] at found
    split at found
    · cases found
    · obtain rfl := Option.some.inj found
      simp [ApiKeyUpdateValues.apply, revokes]

/-- Neither the database nor Redis has an active record of the public id. -/
structure AuthState.Revoked (publicId : String) (s : AuthState) : Prop where
  inactive : activeRecord s.apiKeys publicId = none
  uncached : s.getCacheValue (toCacheKey publicId) = none

/-- What holds of the key while the script goes on. -/
structure AuthState.Revoking (publicId : String) (s : AuthState) : Prop where
  updated : s.script = .updated → activeRecord s.apiKeys publicId = none
  cleared : s.script.hasCleared = true → s.Revoked publicId
  written : ∀ process stored, (s.localCache process).entry s.now publicId = some stored →
    stored.storedAt ≤ s.now
  finished : ∀ finishedAt, s.script = .finished finishedAt → ∀ process stored,
    (s.localCache process).entry s.now publicId = some stored →
      stored.storedAt ≤ finishedAt ∨ stored.value.isActive = false

section Steps

variable {codec : RecordCodec} {hashApiKeySecret : String → String}
  {options : UpdateApiKeyCliOptions} {s s' : AuthState} {a : AuthState.Action}

/-- What a step of the script does. -/
theorem script_next (script : a.OfScript)
    (taken : s.next codec hashApiKeySecret options a = some s') :
    (s.script = .ready ∧ s' = { s with
        apiKeys := s.apiKeys.map fun row =>
          if row.publicId = options.publicId then options.updates.apply row else row
        script := .updated }) ∨
      (s.script = .updated ∧ s' = { s with
        redis := (s.redis.delete (toCacheKey options.publicId)).delete
          (toNegativeCacheKey options.publicId)
        script := .cleared }) ∨
      (s.script = .cleared ∧ s' = { s with script := .finished s.now }) ∨
      (s.script.hasFinished = false ∧ s' = { s with script := .threw }) := by
  obtain rfl | rfl | rfl | rfl := script
  · obtain ⟨ready, taken⟩ := Option.ite_none_right_eq_some.mp taken
    split at taken
    · exact .inl ⟨ready, (Option.some.inj taken).symm⟩
    · exact .inr (.inr (.inr ⟨by rw [ready]; rfl, (Option.some.inj taken).symm⟩))
  · obtain ⟨updated, taken⟩ := Option.ite_none_right_eq_some.mp taken
    exact .inr (.inl ⟨updated, (Option.some.inj taken).symm⟩)
  · obtain ⟨cleared, taken⟩ := Option.ite_none_right_eq_some.mp taken
    exact .inr (.inr (.inl ⟨cleared, (Option.some.inj taken).symm⟩))
  · refine .inr (.inr (.inr ?_))
    simp only [AuthState.next, AuthState.throwScript] at taken
    cases phase : s.script with
    | ready | updated | cleared =>
        rw [phase] at taken
        exact ⟨rfl, (Option.some.inj taken).symm⟩
    | finished finishedAt =>
        rw [phase] at taken
        cases taken
    | threw =>
        rw [phase] at taken
        cases taken

/-- Other steps change neither the database nor the script, and time passes. -/
theorem other_next (other : ¬ a.OfScript)
    (taken : s.next codec hashApiKeySecret options a = some s') :
    s'.apiKeys = s.apiKeys ∧ s'.script = s.script ∧ s.now ≤ s'.now := by
  cases a with
  | resolve | evictLocal | evictRedis =>
      obtain rfl := Option.some.inj taken
      exact ⟨rfl, rfl, le_rfl⟩
  | wait elapsed =>
      obtain rfl := Option.some.inj taken
      exact ⟨rfl, rfl, Nat.le_add_right _ _⟩
  | answer index fails =>
      obtain ⟨_, _, _, _, _, _, _, -, -, rfl⟩ := AuthState.answer_eq_some taken
      exact ⟨rfl, rfl, le_rfl⟩
  | resume index =>
      obtain ⟨_, _, _, _, _, _, _, -, -, rfl⟩ := AuthState.resume_eq_some taken
      exact ⟨rfl, rfl, le_rfl⟩
  | land position =>
      obtain ⟨_, -, rfl⟩ := AuthState.land_eq_some taken
      exact ⟨rfl, rfl, le_rfl⟩
  | lose position =>
      obtain rfl := AuthState.lose_eq_some taken
      exact ⟨rfl, rfl, le_rfl⟩
  | updateRow | deleteKeys | finishScript | throwScript =>
      exact absurd (by simp [AuthState.Action.OfScript]) other

/-- A positive entry of Redis that is not there stays away, unless a write of its record lands. -/
theorem uncached_next {publicId : String} (uncached : s.getCacheValue (toCacheKey publicId) = none)
    (notLanding : ∀ position, a = .land position →
      ∀ record ∈ s.inFlight[position]?, record.publicId ≠ publicId)
    (taken : s.next codec hashApiKeySecret options a = some s') :
    s'.getCacheValue (toCacheKey publicId) = none := by
  have away : ∀ {redis : ExpiringStore String String} {now : ℕ},
      (∀ text, redis.get now (toCacheKey publicId) = some text →
        s.getCacheValue (toCacheKey publicId) = some text) →
      redis.get now (toCacheKey publicId) = none := by
    intro redis now old
    cases found : redis.get now (toCacheKey publicId) with
    | none => rfl
    | some text => exact absurd (uncached.symm.trans (old text found)) nofun
  cases a with
  | resolve | evictLocal =>
      obtain rfl := Option.some.inj taken
      exact uncached
  | evictRedis key =>
      obtain rfl := Option.some.inj taken
      exact away fun text found => (ExpiringStore.get_delete found).2
  | wait elapsed =>
      obtain rfl := Option.some.inj taken
      exact away fun text found => ExpiringStore.get_of_later (Nat.le_add_right _ _) found
  | answer index fails =>
      obtain ⟨_, _, publicId', _, _, _, _, -, -, rfl⟩ := AuthState.answer_eq_some taken
      rw [AuthState.getCacheValue]
      split
      · rw [AuthState.setCacheValue, ExpiringStore.get_set_of_ne (toCacheKey_ne _ _)]
        exact uncached
      · exact uncached
  | resume index =>
      obtain ⟨_, _, _, _, _, _, _, -, -, rfl⟩ := AuthState.resume_eq_some taken
      exact uncached
  | land position =>
      obtain ⟨record, sent, rfl⟩ := AuthState.land_eq_some taken
      have other : toCacheKey publicId ≠ toCacheKey record.publicId := fun same =>
        notLanding position rfl record sent (toCacheKey_injective same).symm
      rw [AuthState.getCacheValue, AuthState.setCacheValue, ExpiringStore.get_set_of_ne other]
      exact uncached
  | lose position =>
      obtain rfl := AuthState.lose_eq_some taken
      exact uncached
  | updateRow | deleteKeys | finishScript | throwScript =>
      obtain ⟨-, rfl⟩ | ⟨-, rfl⟩ | ⟨-, rfl⟩ | ⟨-, rfl⟩ :=
        script_next (by simp [AuthState.Action.OfScript]) taken
      · exact uncached
      · exact away fun text found =>
          (ExpiringStore.get_delete (ExpiringStore.get_delete found).2).2
      · exact uncached
      · exact uncached

/-- A local entry after a step: an old one, or one that a call puts there. -/
theorem localEntry_next {publicId : String} {process : ℕ} {stored : Lasting ApiKeyCacheRecord}
    (taken : s.next codec hashApiKeySecret options a = some s')
    (served : (s'.localCache process).entry s'.now publicId = some stored) :
    (s.localCache process).entry s.now publicId = some stored ∨
      ∃ index, a = .resume index ∧ s.storing codec index = some (publicId, stored.value) ∧
        stored.storedAt = s.now := by
  cases a with
  | resolve | evictRedis =>
      obtain rfl := Option.some.inj taken
      exact .inl served
  | evictLocal other key =>
      obtain rfl := Option.some.inj taken
      exact .inl (AuthState.entry_evictLocal served)
  | wait elapsed =>
      obtain rfl := Option.some.inj taken
      exact .inl (ExpiringStore.entry_of_later (Nat.le_add_right _ _) served)
  | answer index fails =>
      obtain ⟨_, _, _, _, _, _, _, -, -, rfl⟩ := AuthState.answer_eq_some taken
      exact .inl served
  | resume index =>
      obtain ⟨_, _, _, _, _, _, _, call, goesOn, rfl⟩ := AuthState.resume_eq_some taken
      obtain ⟨-, rfl, record, storing, rfl⟩ | old := AuthState.entry_setLocal served
      · refine .inr ⟨index, rfl, ?_, rfl⟩
        simp [AuthState.storing, call, goesOn, storing]
      · exact .inl old
  | land position =>
      obtain ⟨_, -, rfl⟩ := AuthState.land_eq_some taken
      exact .inl served
  | lose position =>
      obtain rfl := AuthState.lose_eq_some taken
      exact .inl served
  | updateRow | deleteKeys | finishScript | throwScript =>
      obtain ⟨-, rfl⟩ | ⟨-, rfl⟩ | ⟨-, rfl⟩ | ⟨-, rfl⟩ :=
        script_next (by simp [AuthState.Action.OfScript]) taken
      · exact .inl served
      · exact .inl served
      · exact .inl served
      · exact .inl served

/-- **While the script goes on**, nothing active of the key is left or put where a later call
looks, but for local entries from before. -/
theorem revoking_next (revokes : options.updates.isActive = some false)
    (revoking : s.Revoking options.publicId) (timely : Timely codec options.publicId s a)
    (taken : s.next codec hashApiKeySecret options a = some s') :
    s'.Revoking options.publicId := by
  obtain ⟨updated, cleared, written, finished⟩ := revoking
  by_cases script : a.OfScript
  · have old : ∀ process stored, (s'.localCache process).entry s'.now options.publicId =
        some stored → (s.localCache process).entry s.now options.publicId = some stored := by
      intro process stored served
      obtain before | ⟨index, rfl, -⟩ := localEntry_next taken served
      · exact before
      · simp [AuthState.Action.OfScript] at script
    obtain ⟨-, rfl⟩ | ⟨phase, rfl⟩ | ⟨phase, rfl⟩ | ⟨-, rfl⟩ := script_next script taken
    · refine ⟨fun _ => activeRecord_update revokes _, fun now => ?_, written,
        fun finishedAt now => ?_⟩
      · cases now
      · cases now
    · refine ⟨fun now => ?_, fun _ => ⟨updated phase, ?_⟩, written, fun finishedAt now => ?_⟩
      · cases now
      · rw [AuthState.getCacheValue]
        cases found : ((s.redis.delete (toCacheKey options.publicId)).delete
            (toNegativeCacheKey options.publicId)).get s.now (toCacheKey options.publicId) with
        | none => rfl
        | some text =>
            exact absurd rfl (ExpiringStore.get_delete (ExpiringStore.get_delete found).2).1
      · cases now
    · have revoked := cleared (by rw [phase]; rfl)
      refine ⟨fun now => ?_, fun _ => ⟨revoked.inactive, revoked.uncached⟩, written,
        fun finishedAt now process stored served => .inl ?_⟩
      · cases now
      · obtain rfl : s.now = finishedAt := UpdatePhase.finished.inj now
        exact written process stored served
    · refine ⟨fun now => ?_, fun now => ?_, written, fun finishedAt now => ?_⟩ <;> cases now
  · obtain ⟨apiKeys, phase, passes⟩ := other_next script taken
    refine ⟨fun now => ?_, fun now => ⟨?_, ?_⟩, fun process stored served => ?_,
      fun finishedAt now process stored served => ?_⟩
    · rw [apiKeys]
      exact updated (phase ▸ now)
    · rw [apiKeys]
      exact (cleared (phase ▸ now)).inactive
    · refine uncached_next (cleared (phase ▸ now)).uncached (fun position landing => ?_) taken
      subst landing
      exact timely (phase ▸ now)
    · obtain before | ⟨index, rfl, -, at_once⟩ := localEntry_next taken served
      · exact (written process stored before).trans passes
      · omega
    · have now : s.script = .finished finishedAt := phase ▸ now
      obtain before | ⟨index, rfl, storing, -⟩ := localEntry_next taken served
      · exact finished finishedAt now process stored before
      · exact .inr (timely (by rw [now]; rfl) _ storing rfl)

end Steps

/-! ## Calls that start later -/

/-- What a call has got has no active record. -/
def AnswerBarred (codec : RecordCodec) : Awaited → Prop
  | .redisCachedValue (some value) => ∀ record, value.bind codec.parse = some record →
      record.isActive = false
  | .record (some record) => record.filter (fun record => record.isActive) = none
  | _ => True

/-- The call is one of the public id and has not accepted the key. -/
def PhaseBarred (codec : RecordCodec) (publicId : String) : ResolvePhase → Prop
  | .awaits own _ awaited => own = publicId ∧ AnswerBarred codec awaited
  | .returned resolution => ∀ consumer, resolution ≠ .ok consumer

/-- The script has finished, and no call from a number on accepts the key. -/
structure AuthState.Barred (codec : RecordCodec) (publicId : String) (count : ℕ)
    (s : AuthState) : Prop where
  finished : s.script.hasFinished = true
  revoked : s.Revoked publicId
  localCache : ∀ process stored, (s.localCache process).entry s.now publicId = some stored →
    stored.value.isActive = false
  calls : ∀ index call, count ≤ index → s.calls[index]? = some call → call.IsFor publicId →
    PhaseBarred codec publicId call.phase

theorem validate_inactive {record : ApiKeyCacheRecord} (inactive : record.isActive = false)
    (computedSecretHash : String) (consumer : ApiConsumer) :
    validateRecord record computedSecretHash ≠ .ok consumer := by
  intro accepted
  have active := (validateRecord_eq_ok.mp accepted).1
  rw [inactive] at active
  cases active

section Later

variable {codec : RecordCodec} {hashApiKeySecret : String → String}
  {options : UpdateApiKeyCliOptions} {s s' : AuthState} {a : AuthState.Action}
  {publicId computedSecretHash : String} {awaited answered : Awaited} {count : ℕ}

theorem answer_barred {fails : Bool} (revoked : s.Revoked publicId)
    (answers : s.answerOf publicId fails awaited = some answered) :
    AnswerBarred codec answered := by
  cases awaited with
  | negativeCache | cacheMissingPublicId =>
      obtain rfl := Option.some.inj answers
      trivial
  | redisCache =>
      obtain rfl := Option.some.inj answers
      cases fails with
      | true => trivial
      | false =>
          intro record parses
          rw [revoked.uncached] at parses
          cases parses
  | lookup =>
      obtain rfl := Option.some.inj answers
      cases fails with
      | true => trivial
      | false => exact revoked.inactive
  | negativeCacheValue | redisCachedValue | record | cachedMissingPublicId => cases answers

theorem continuation_barred {next : Continuation} (barred : AnswerBarred codec awaited)
    (goesOn : continuation codec publicId computedSecretHash awaited = some next) :
    PhaseBarred codec publicId next.phase := by
  cases awaited with
  | negativeCacheValue value =>
      cases value with
      | none =>
          obtain rfl := Option.some.inj goesOn
          intro _ accepted
          cases accepted
      | some value =>
          simp only [continuation] at goesOn
          split at goesOn
          · obtain rfl := Option.some.inj goesOn
            intro _ accepted
            cases accepted
          · obtain rfl := Option.some.inj goesOn
            exact ⟨rfl, trivial⟩
  | redisCachedValue value =>
      cases value with
      | none =>
          obtain rfl := Option.some.inj goesOn
          intro _ accepted
          cases accepted
      | some value =>
          simp only [continuation] at goesOn
          split at goesOn
          · rename_i cachedRecord cached
            obtain rfl := Option.some.inj goesOn
            obtain ⟨text, present, parses⟩ := Option.bind_eq_some_iff.mp cached
            have inactive : cachedRecord.isActive = false :=
              barred cachedRecord (Option.bind_eq_some_iff.mpr
                ⟨text, (Option.filter_eq_some_iff.mp present).1, parses⟩)
            exact validate_inactive inactive computedSecretHash
          · obtain rfl := Option.some.inj goesOn
            exact ⟨rfl, trivial⟩
  | record value =>
      cases value with
      | none =>
          obtain rfl := Option.some.inj goesOn
          intro _ accepted
          cases accepted
      | some value =>
          have missing : value.filter (fun record => record.isActive) = none := barred
          simp only [continuation, missing] at goesOn
          obtain rfl := Option.some.inj goesOn
          exact ⟨rfl, trivial⟩
  | cachedMissingPublicId =>
      obtain rfl := Option.some.inj goesOn
      intro _ accepted
      cases accepted
  | negativeCache | redisCache | lookup | cacheMissingPublicId => cases goesOn

/-- A new call finds nothing active in its local cache. -/
theorem resolvePhase_barred {process : ℕ} {rawApiKey : Option String} {secret : String}
    (inactive : ∀ stored, (s.localCache process).entry s.now publicId = some stored →
      stored.value.isActive = false)
    (parsed : rawApiKey.bind parseOpaqueApiKey = some ⟨publicId, secret⟩) :
    PhaseBarred codec publicId (s.resolvePhase hashApiKeySecret process rawApiKey) := by
  obtain ⟨raw, rfl, present, key⟩ := exists_raw parsed
  have filled : (some raw).filter (fun raw => raw ≠ "") = some raw :=
    Option.filter_eq_some_iff.mpr ⟨rfl, decide_eq_true present⟩
  simp only [AuthState.resolvePhase, filled, key]
  split
  · rename_i record cached
    obtain ⟨stored, served, rfl⟩ := ExpiringStore.get_eq_some.mp cached
    exact validate_inactive (inactive stored served) _
  · exact ⟨rfl, trivial⟩

/-- A list of calls in which one is replaced. -/
theorem barred_set {index : ℕ} {call : ResolveCall}
    (barred : ∀ index call, count ≤ index → s.calls[index]? = some call → call.IsFor publicId →
      PhaseBarred codec publicId call.phase)
    (new : count ≤ index → call.IsFor publicId → PhaseBarred codec publicId call.phase) :
    ∀ position other, count ≤ position → (s.calls.set index call)[position]? = some other →
      other.IsFor publicId → PhaseBarred codec publicId other.phase := by
  intro position other later here isFor
  by_cases same : position = index
  · subst same
    obtain ⟨bound, found⟩ := List.getElem?_eq_some_iff.mp here
    rw [List.getElem_set_self] at found
    subst found
    exact new later isFor
  · rw [List.getElem?_set_ne (Ne.symm same)] at here
    exact barred position other later here isFor

theorem calls_barred_next (barred : s.Barred codec publicId count)
    (taken : s.next codec hashApiKeySecret options a = some s') :
    ∀ index call, count ≤ index → s'.calls[index]? = some call → call.IsFor publicId →
      PhaseBarred codec publicId call.phase := by
  cases a with
  | resolve process rawApiKey =>
      obtain rfl := Option.some.inj taken
      intro index call later here isFor
      rw [AuthState.resolve, List.getElem?_append] at here
      split at here
      · exact barred.calls index call later here isFor
      · obtain rfl := List.mem_singleton.mp (List.mem_of_getElem? here)
        obtain ⟨secret, parsed⟩ := isFor
        exact resolvePhase_barred (barred.localCache process) parsed
  | answer index fails =>
      obtain ⟨_, _, own, _, _, _, _, call, answers, rfl⟩ := AuthState.answer_eq_some taken
      refine barred_set barred.calls fun later isFor => ?_
      obtain ⟨rfl, -⟩ := barred.calls index _ later call isFor
      exact ⟨rfl, answer_barred barred.revoked answers⟩
  | resume index =>
      obtain ⟨_, _, own, _, _, _, _, call, goesOn, rfl⟩ := AuthState.resume_eq_some taken
      refine barred_set barred.calls fun later isFor => ?_
      obtain ⟨rfl, known⟩ := barred.calls index _ later call isFor
      exact continuation_barred known goesOn
  | land position =>
      obtain ⟨_, -, rfl⟩ := AuthState.land_eq_some taken
      exact barred.calls
  | lose position =>
      obtain rfl := AuthState.lose_eq_some taken
      exact barred.calls
  | evictLocal | evictRedis | wait =>
      obtain rfl := Option.some.inj taken
      exact barred.calls
  | updateRow | deleteKeys | finishScript | throwScript =>
      obtain ⟨-, rfl⟩ | ⟨-, rfl⟩ | ⟨-, rfl⟩ | ⟨-, rfl⟩ :=
        script_next (by simp [AuthState.Action.OfScript]) taken
      · exact barred.calls
      · exact barred.calls
      · exact barred.calls
      · exact barred.calls

/-- **No step makes a later call accept the key**, when no old record is cached late. -/
theorem barred_next (barred : s.Barred codec publicId count) (timely : Timely codec publicId s a)
    (taken : s.next codec hashApiKeySecret options a = some s') :
    s'.Barred codec publicId count := by
  have finished := barred.finished
  have cleared : s.script.hasCleared = true := by
    cases phase : s.script with
    | finished => rfl
    | ready | updated | cleared | threw => rw [phase] at finished; cases finished
  have other : ¬ a.OfScript := by
    intro script
    obtain ⟨phase, -⟩ | ⟨phase, -⟩ | ⟨phase, -⟩ | ⟨running, -⟩ := script_next script taken
    · rw [phase] at finished; cases finished
    · rw [phase] at finished; cases finished
    · rw [phase] at finished; cases finished
    · rw [running] at finished; cases finished
  obtain ⟨apiKeys, phase, -⟩ := other_next other taken
  refine ⟨by rw [phase]; exact finished, ⟨?_, ?_⟩, fun process stored served => ?_,
    calls_barred_next barred taken⟩
  · rw [apiKeys]
    exact barred.revoked.inactive
  · refine uncached_next barred.revoked.uncached (fun position landing => ?_) taken
    subst landing
    exact timely cleared
  · obtain before | ⟨index, rfl, storing, -⟩ := localEntry_next taken served
    · exact barred.localCache process stored before
    · exact timely finished _ storing rfl

end Later

/-! ## Whole runs -/

/-- **A revoked key stays revoked in every run in which no old record is cached late.** -/
theorem revoked_stays_revoked {codec : RecordCodec} {hashApiKeySecret : String → String}
    {options : UpdateApiKeyCliOptions} (revokes : options.updates.isActive = some false) :
    StaysRevoked codec hashApiKeySecret options (Timely codec options.publicId) := by
  intro start s finishedAt initial run finished expired s' later index call after here isFor
  have revoking : s.Revoking options.publicId := by
    refine run.invariant ⟨?_, ?_, fun process => initial.written process _, ?_⟩
      fun _ _ _ revoking timely taken => revoking_next revokes revoking timely taken
    · rw [initial.script]
      exact nofun
    · rw [initial.script]
      exact nofun
    · rw [initial.script]
      exact nofun
  have barred : s.Barred codec options.publicId s.calls.length := by
    refine ⟨by rw [finished]; rfl, revoking.cleared (by rw [finished]; rfl),
      fun process stored served => ?_, fun position other long found => ?_⟩
    · have new := expired process stored served
      obtain old | inactive := revoking.finished finishedAt finished process stored served
      · omega
      · exact inactive
    · rw [List.getElem?_eq_none long] at found
      cases found
  have barred : s'.Barred codec options.publicId s.calls.length :=
    later.invariant barred fun _ _ _ barred timely taken => barred_next barred timely taken
  have phase := barred.calls index call after here isFor
  intro consumer returned
  rw [returned] at phase
  exact phase consumer rfl

/-! ## A late write -/

/-- What the database says of the sample key before the script. -/
def sampleRecord : ApiKeyCacheRecord where
  apiKeyId := "key-1"
  publicId := "pub1"
  keyName := "Key One"
  secretHash := "8825ce3187bf4403c4d81ec4107698cf985d59b85da7ed3726c47d094af88ff3"
  rpmLimit := 90
  maxSseConnections := 4
  isActive := true

theorem sampleAuthState_initial : sampleAuthState.Initial :=
  ⟨rfl, rfl, rfl, fun _ _ _ served => (nomatch served)⟩

/-- The script has finished, and a call has the record that it loaded before. -/
def lateState : AuthState where
  apiKeys := [{ sampleApiKey with isActive := false }]
  redis := (ExpiringStore.empty.delete (toCacheKey "pub1")).delete (toNegativeCacheKey "pub1")
  localCache := fun _ => .empty
  calls := [⟨0, some "eh_live_pub1_secret-1",
    .awaits "pub1" sampleRecord.secretHash (.record (some (some sampleRecord))), false⟩]
  inFlight := []
  script := .finished 0
  now := 0

/-- The call of `lateState` caches its record, and a call of another process accepts the key long
after. -/
theorem late_write_revives_key :
    ¬ StaysRevoked RecordText.codec sampleHash sampleOptions fun _ _ => True := by
  intro stays
  have run : Reachable (AuthState.next RecordText.codec sampleHash sampleOptions) sampleAuthState
      lateState :=
    .of_execute (fun _ _ _ => trivial)
      (show execute _ _ [.resolve 0 (some "eh_live_pub1_secret-1"), .answer 0 false, .resume 0,
        .answer 0 false, .resume 0, .answer 0 false, .updateRow, .deleteKeys, .finishScript] = _
        from rfl)
  obtain ⟨s, later, observed⟩ := exists_reachable_of_execute
    (AuthState.next RecordText.codec sampleHash sampleOptions) lateState
    [.resume 0, .land 0, .wait 60000, .resolve 1 (some "eh_live_pub1_secret-1"), .answer 1 false,
      .resume 1, .answer 1 false, .resume 1]
    (fun s => decide (s.calls[1]? =
      some (⟨1, some "eh_live_pub1_secret-1", .returned (.ok sampleConsumer), false⟩ :
        ResolveCall)))
    (by decide +kernel)
  exact stays sampleAuthState lateState 0 sampleAuthState_initial run rfl
    (fun _ _ served => (nomatch served)) s later 1 _ le_rfl (of_decide_eq_true observed)
    ⟨"secret-1", by decide +kernel⟩ sampleConsumer rfl

/-- The script has finished after the record was cached in time, and the local entry has
expired. -/
def revokedState : AuthState where
  apiKeys := [{ sampleApiKey with isActive := false }]
  redis := ((ExpiringStore.empty.set 0 (redisPositiveTtlSeconds * 1000) (toCacheKey "pub1")
    (RecordText.codec.stringify sampleRecord)).delete (toCacheKey "pub1")).delete
      (toNegativeCacheKey "pub1")
  localCache := Function.update (fun _ => .empty) 0
    (ExpiringStore.empty.set 0 (localCacheTtlMs + 1) "pub1" sampleRecord)
  calls := [⟨0, some "eh_live_pub1_secret-1", .returned (.ok sampleConsumer), false⟩]
  inFlight := []
  script := .finished 0
  now := 30001

theorem revokedState_expired : revokedState.LocalExpired "pub1" 0 := by
  intro process stored served
  by_cases first : process = 0
  · subst first
    simp only [revokedState, Function.update_self] at served
    obtain ⟨-, rfl⟩ | ⟨away, -⟩ := ExpiringStore.entry_set served
    · have lasts := (Option.filter_eq_some_iff.mp served).2
      simp [localCacheTtlMs] at lasts
    · exact absurd rfl away
  · simp only [revokedState, Function.update_of_ne first] at served
    cases served

theorem revoked_stays_revoked_sample : ∃ s,
    Reaches (AuthState.next RecordText.codec sampleHash sampleOptions)
      (Timely RecordText.codec "pub1") revokedState s ∧
    s.calls[1]? = some ⟨0, some "eh_live_pub1_secret-1", .returned .invalidApiKey, false⟩ ∧
    Reaches (AuthState.next RecordText.codec sampleHash sampleOptions)
      (Timely RecordText.codec "pub1") sampleAuthState revokedState ∧
    sampleAuthState.Initial ∧ revokedState.LocalExpired "pub1" 0 ∧
    StaysRevoked RecordText.codec sampleHash sampleOptions (Timely RecordText.codec "pub1") := by
  have run : Reachable (admitted (AuthState.next RecordText.codec sampleHash sampleOptions)
      (Timely RecordText.codec "pub1")) sampleAuthState revokedState :=
    .of_execute (fun _ _ _ => trivial)
      (show execute _ _ [.resolve 0 (some "eh_live_pub1_secret-1"), .answer 0 false, .resume 0,
        .answer 0 false, .resume 0, .answer 0 false, .resume 0, .land 0, .updateRow, .deleteKeys,
        .finishScript, .wait 30001] = _ from rfl)
  obtain ⟨s, later, observed⟩ := exists_reachable_of_execute
    (admitted (AuthState.next RecordText.codec sampleHash sampleOptions)
      (Timely RecordText.codec "pub1")) revokedState
    [.resolve 0 (some "eh_live_pub1_secret-1"), .answer 1 false, .resume 1, .answer 1 false,
      .resume 1, .answer 1 false, .resume 1, .answer 1 false, .resume 1]
    (fun s => decide (s.calls[1]? =
      some (⟨0, some "eh_live_pub1_secret-1", .returned .invalidApiKey, false⟩ : ResolveCall)))
    (by decide +kernel)
  exact ⟨s, .of_admitted later, of_decide_eq_true observed, .of_admitted run,
    sampleAuthState_initial, revokedState_expired, revoked_stays_revoked rfl⟩

end EliteHubVault
