import EliteHubVault.Auth.ApiKeyCrypto
import EliteHubVault.Library.ExpiringStore
import EliteHubVault.Library.Runs

/-!
# Resolution of API keys

A resolver looks for the record of a public id in the cache of its process, then in two Redis
entries, a negative and a positive one, and then in the database. Several API processes share
Redis and the database, and a script updates a row of the database and deletes its two Redis
entries.

An `await` splits `resolve` in two. While a call awaits a store, the store may answer it or
reject it, and the call takes up the answer in a later step, so that an answer may be out of date
by then. The positive Redis entry is written without being awaited: the write is in flight until
it lands or is lost. Entries expire on the clock and may be evicted at any time.
-/

set_option autoImplicit false

namespace EliteHubVault

open Library

/-! ## Records -/

structure ApiKeyCacheRecord where
  apiKeyId : String
  publicId : String
  keyName : String
  secretHash : String
  rpmLimit : ℤ
  maxSseConnections : ℤ
  isActive : Bool
deriving DecidableEq

structure ApiKeyConsumer where
  apiKeyId : String
  publicId : String
  keyName : String
  rpmLimit : ℤ
  maxSseConnections : ℤ
deriving DecidableEq

inductive ApiConsumer where
  | anonymous
  | apiKey (consumer : ApiKeyConsumer)
deriving DecidableEq

inductive ApiConsumerResolution where
  | ok (consumer : ApiConsumer)
  | invalidApiKey
  | serviceUnavailable
deriving DecidableEq

/-- A row of the table of API keys. -/
structure ApiKeyRow where
  id : String
  name : String
  publicId : String
  secretHash : String
  isActive : Bool
  rpmLimit : ℤ
  maxSseConnections : ℤ
deriving DecidableEq

/-- `JSON.stringify` of a record, and `JSON.parse` of a cached text, which raises `none`. The
code takes whatever is parsed for a record. -/
structure RecordCodec where
  parse : String → Option ApiKeyCacheRecord
  stringify : ApiKeyCacheRecord → String
  parse_stringify : ∀ record, parse (stringify record) = some record

def localCacheTtlMs : ℕ := 30000
def redisPositiveTtlSeconds : ℕ := 300
def redisNegativeTtlSeconds : ℕ := 45

def toCacheKey (publicId : String) : String := "api-key:meta:" ++ publicId
def toNegativeCacheKey (publicId : String) : String := "api-key:missing:" ++ publicId

/-- `defaultLookupApiKeyRecord`. -/
def lookupApiKeyRecord (apiKeys : List ApiKeyRow) (publicId : String) :
    Option ApiKeyCacheRecord :=
  match apiKeys.find? fun row => row.publicId = publicId with
  | none => none
  | some record =>
      if record.publicId = "" ∨ record.secretHash = "" then none
      else
        some
          { apiKeyId := record.id
            publicId := record.publicId
            keyName := record.name
            secretHash := record.secretHash
            rpmLimit := record.rpmLimit
            maxSseConnections := record.maxSseConnections
            isActive := record.isActive }

def ApiKeyCacheRecord.consumer (record : ApiKeyCacheRecord) : ApiKeyConsumer where
  apiKeyId := record.apiKeyId
  publicId := record.publicId
  keyName := record.keyName
  rpmLimit := record.rpmLimit
  maxSseConnections := record.maxSseConnections

def validateRecord (record : ApiKeyCacheRecord) (computedSecretHash : String) :
    ApiConsumerResolution :=
  if record.isActive = false ∨ timingSafeEqualHex computedSecretHash record.secretHash = false then
    .invalidApiKey
  else .ok (.apiKey record.consumer)

/-! ## Calls -/

/-- What a call awaits, and an answer that it has not taken up; `none` is a rejection. -/
inductive Awaited where
  | negativeCache
  | negativeCacheValue (value : Option (Option String))
  | redisCache
  | redisCachedValue (value : Option (Option String))
  | lookup
  | record (value : Option (Option ApiKeyCacheRecord))
  | cacheMissingPublicId
  | cachedMissingPublicId
deriving DecidableEq

/-- A call that is suspended knows the public id and the hash of the secret. -/
inductive ResolvePhase where
  | awaits (publicId computedSecretHash : String) (awaited : Awaited)
  | returned (resolution : ApiConsumerResolution)
deriving DecidableEq

/-- A call, in the process that runs it. `failed` tells whether a cache read or the lookup that
it made was rejected. -/
structure ResolveCall where
  process : ℕ
  rawApiKey : Option String
  phase : ResolvePhase
  failed : Bool
deriving DecidableEq

/-- What a call does when it goes on: a record that it puts into the local cache, a record that
it writes to Redis without awaiting it, and its next phase. -/
structure Continuation where
  stores : Option ApiKeyCacheRecord
  caches : Option ApiKeyCacheRecord
  phase : ResolvePhase

/-- A call goes on from its answer. -/
def continuation (codec : RecordCodec) (publicId computedSecretHash : String) :
    Awaited → Option Continuation
  | .negativeCacheValue none => some ⟨none, none, .returned .serviceUnavailable⟩
  | .negativeCacheValue (some negativeCacheValue) =>
      if negativeCacheValue.any fun value => value ≠ "" then
        some ⟨none, none, .returned .invalidApiKey⟩
      else some ⟨none, none, .awaits publicId computedSecretHash .redisCache⟩
  | .redisCachedValue none => some ⟨none, none, .returned .serviceUnavailable⟩
  | .redisCachedValue (some redisCachedValue) =>
      match (redisCachedValue.filter fun value => value ≠ "").bind codec.parse with
      | some cachedRecord =>
          some ⟨some cachedRecord, none,
            .returned (validateRecord cachedRecord computedSecretHash)⟩
      | none => some ⟨none, none, .awaits publicId computedSecretHash .lookup⟩
  | .record none => some ⟨none, none, .returned .serviceUnavailable⟩
  | .record (some record) =>
      match record.filter fun record => record.isActive with
      | none => some ⟨none, none, .awaits publicId computedSecretHash .cacheMissingPublicId⟩
      | some record =>
          some ⟨some record, some record, .returned (validateRecord record computedSecretHash)⟩
  | .cachedMissingPublicId => some ⟨none, none, .returned .invalidApiKey⟩
  | .negativeCache | .redisCache | .lookup | .cacheMissingPublicId => none

/-! ## State -/

structure ApiKeyUpdateValues where
  name : Option String
  rpmLimit : Option ℤ
  maxSseConnections : Option ℤ
  isActive : Option Bool
deriving DecidableEq

structure UpdateApiKeyCliOptions where
  publicId : String
  updates : ApiKeyUpdateValues
deriving DecidableEq

/-- The columns that are set in a row. -/
def ApiKeyUpdateValues.apply (updates : ApiKeyUpdateValues) (row : ApiKeyRow) : ApiKeyRow :=
  { row with
    name := updates.name.getD row.name
    rpmLimit := updates.rpmLimit.getD row.rpmLimit
    maxSseConnections := updates.maxSseConnections.getD row.maxSseConnections
    isActive := updates.isActive.getD row.isActive }

/-- How far the script has come. -/
inductive UpdatePhase where
  | ready
  | updated
  | cleared
  | finished (finishedAt : ℕ)
  | threw
deriving DecidableEq

/-- The table of API keys, Redis, the caches of the API processes, the calls of all of them, the
records of writes in flight, the script, and the clock in milliseconds. -/
structure AuthState where
  apiKeys : List ApiKeyRow
  redis : ExpiringStore String String
  localCache : ℕ → ExpiringStore String ApiKeyCacheRecord
  calls : List ResolveCall
  inFlight : List ApiKeyCacheRecord
  script : UpdatePhase
  now : ℕ

namespace AuthState

def getCacheValue (key : String) (s : AuthState) : Option String := s.redis.get s.now key

/-- Redis after `setCacheValue`. -/
def setCacheValue (key value : String) (ttlSeconds : ℕ) (s : AuthState) :
    ExpiringStore String String := s.redis.set s.now (ttlSeconds * 1000) key value

/-- `localCache.get`. -/
def getLocal (process : ℕ) (publicId : String) (s : AuthState) : Option ApiKeyCacheRecord :=
  (s.localCache process).get s.now publicId

/-- The local caches after `localCache.set`, when there is a record to put there. An entry is
stale once it is older than its time to live. -/
def setLocal (process : ℕ) (publicId : String) (stores : Option ApiKeyCacheRecord)
    (s : AuthState) : ℕ → ExpiringStore String ApiKeyCacheRecord :=
  match stores with
  | none => s.localCache
  | some record =>
      Function.update s.localCache process
        ((s.localCache process).set s.now (localCacheTtlMs + 1) publicId record)

/-- The local caches without an entry. -/
def evictLocal (process : ℕ) (publicId : String) (s : AuthState) :
    ℕ → ExpiringStore String ApiKeyCacheRecord :=
  Function.update s.localCache process ((s.localCache process).delete publicId)

/-! ## Steps of a call -/

/-- `resolve`, up to its end or its first `await`. -/
def resolvePhase (hashApiKeySecret : String → String) (process : ℕ) (rawApiKey : Option String)
    (s : AuthState) : ResolvePhase :=
  match rawApiKey.filter fun raw => raw ≠ "" with
  | none => .returned (.ok .anonymous)
  | some rawApiKey =>
      match parseOpaqueApiKey rawApiKey with
      | none => .returned .invalidApiKey
      | some parsedApiKey =>
          let computedSecretHash := hashApiKeySecret parsedApiKey.secret
          match s.getLocal process parsedApiKey.publicId with
          | some locallyCached => .returned (validateRecord locallyCached computedSecretHash)
          | none => .awaits parsedApiKey.publicId computedSecretHash .negativeCache

def resolve (hashApiKeySecret : String → String) (process : ℕ) (rawApiKey : Option String)
    (s : AuthState) : AuthState :=
  { s with
    calls := s.calls ++
      [⟨process, rawApiKey, s.resolvePhase hashApiKeySecret process rawApiKey, false⟩] }

/-- The answer of a store, which may fail. -/
def answerOf (publicId : String) (fails : Bool) (s : AuthState) : Awaited → Option Awaited
  | .negativeCache =>
      some (.negativeCacheValue
        (if fails then none else some (s.getCacheValue (toNegativeCacheKey publicId))))
  | .redisCache =>
      some (.redisCachedValue
        (if fails then none else some (s.getCacheValue (toCacheKey publicId))))
  | .lookup =>
      some (.record (if fails then none else some (lookupApiKeyRecord s.apiKeys publicId)))
  | .cacheMissingPublicId => some .cachedMissingPublicId
  | _ => none

/-- A store answers what a call awaits. `cacheMissingPublicId` catches a write that fails. -/
def answer (index : ℕ) (fails : Bool) (s : AuthState) : Option AuthState :=
  match s.calls[index]? with
  | some ⟨process, rawApiKey, .awaits publicId computedSecretHash awaited, failed⟩ =>
      (s.answerOf publicId fails awaited).map fun answered =>
        { s with
          calls := s.calls.set index
            ⟨process, rawApiKey, .awaits publicId computedSecretHash answered,
              failed || (fails && decide (awaited ≠ .cacheMissingPublicId))⟩
          redis :=
            if awaited = .cacheMissingPublicId ∧ fails = false then
              s.setCacheValue (toNegativeCacheKey publicId) "1" redisNegativeTtlSeconds
            else s.redis }
  | _ => none

/-- A call goes on with an answer. -/
def resume (codec : RecordCodec) (index : ℕ) (s : AuthState) : Option AuthState :=
  match s.calls[index]? with
  | some ⟨process, rawApiKey, .awaits publicId computedSecretHash awaited, failed⟩ =>
      (continuation codec publicId computedSecretHash awaited).map fun next =>
        { s with
          calls := s.calls.set index ⟨process, rawApiKey, next.phase, failed⟩
          localCache := s.setLocal process publicId next.stores
          inFlight := s.inFlight ++ next.caches.toList }
  | _ => none

/-- The write of `cacheRecord` arrives, or is lost. -/
def land (codec : RecordCodec) (position : ℕ) (s : AuthState) : Option AuthState :=
  s.inFlight[position]?.map fun record =>
    { s with
      inFlight := s.inFlight.eraseIdx position
      redis := s.setCacheValue (toCacheKey record.publicId) (codec.stringify record)
        redisPositiveTtlSeconds }

def lose (position : ℕ) (s : AuthState) : Option AuthState :=
  s.inFlight[position]?.map fun _ => { s with inFlight := s.inFlight.eraseIdx position }

/-! ## Steps of the script -/

/-- The update of the rows of a public id; without one the script throws. -/
def updateRow (options : UpdateApiKeyCliOptions) (s : AuthState) : Option AuthState :=
  if s.script = .ready then
    if s.apiKeys.any fun row => row.publicId = options.publicId then
      some { s with
        apiKeys := s.apiKeys.map fun row =>
          if row.publicId = options.publicId then options.updates.apply row else row
        script := .updated }
    else some { s with script := .threw }
  else none

/-- `Redis.del` of both keys. -/
def deleteKeys (options : UpdateApiKeyCliOptions) (s : AuthState) : Option AuthState :=
  if s.script = .updated then
    some { s with
      redis := (s.redis.delete (toCacheKey options.publicId)).delete
        (toNegativeCacheKey options.publicId)
      script := .cleared }
  else none

def finishScript (s : AuthState) : Option AuthState :=
  if s.script = .cleared then some { s with script := .finished s.now } else none

/-- A statement or a command of the script is rejected. -/
def throwScript (s : AuthState) : Option AuthState :=
  match s.script with
  | .ready | .updated | .cleared => some { s with script := .threw }
  | .finished _ | .threw => none

/-! ## Steps -/

inductive Action where
  | resolve (process : ℕ) (rawApiKey : Option String)
  | answer (index : ℕ) (fails : Bool)
  | resume (index : ℕ)
  | land (position : ℕ)
  | lose (position : ℕ)
  | updateRow
  | deleteKeys
  | finishScript
  | throwScript
  | evictLocal (process : ℕ) (publicId : String)
  | evictRedis (key : String)
  | wait (elapsed : ℕ)
deriving DecidableEq

def next (codec : RecordCodec) (hashApiKeySecret : String → String)
    (options : UpdateApiKeyCliOptions) (s : AuthState) : Action → Option AuthState
  | .resolve process rawApiKey => some (s.resolve hashApiKeySecret process rawApiKey)
  | .answer index fails => s.answer index fails
  | .resume index => s.resume codec index
  | .land position => s.land codec position
  | .lose position => s.lose position
  | .updateRow => s.updateRow options
  | .deleteKeys => s.deleteKeys options
  | .finishScript => s.finishScript
  | .throwScript => s.throwScript
  | .evictLocal process publicId =>
      some { s with localCache := s.evictLocal process publicId }
  | .evictRedis key => some { s with redis := s.redis.delete key }
  | .wait elapsed => some { s with now := s.now + elapsed }

/-! ## What a step does -/

section Inversion

variable {codec : RecordCodec} {s s' : AuthState} {index position : ℕ} {fails : Bool}

theorem answer_eq_some (taken : s.answer index fails = some s') :
    ∃ process rawApiKey publicId computedSecretHash awaited failed answered,
      s.calls[index]? =
          some ⟨process, rawApiKey, .awaits publicId computedSecretHash awaited, failed⟩ ∧
        s.answerOf publicId fails awaited = some answered ∧
        s' = { s with
          calls := s.calls.set index
            ⟨process, rawApiKey, .awaits publicId computedSecretHash answered,
              failed || (fails && decide (awaited ≠ .cacheMissingPublicId))⟩
          redis :=
            if awaited = .cacheMissingPublicId ∧ fails = false then
              s.setCacheValue (toNegativeCacheKey publicId) "1" redisNegativeTtlSeconds
            else s.redis } := by
  simp only [answer] at taken
  split at taken
  · rename_i process rawApiKey publicId computedSecretHash awaited failed call
    obtain ⟨answered, answers, rfl⟩ := Option.map_eq_some_iff.mp taken
    exact ⟨process, rawApiKey, publicId, computedSecretHash, awaited, failed, answered, call,
      answers, rfl⟩
  · cases taken

theorem resume_eq_some (taken : s.resume codec index = some s') :
    ∃ process rawApiKey publicId computedSecretHash awaited failed next,
      s.calls[index]? =
          some ⟨process, rawApiKey, .awaits publicId computedSecretHash awaited, failed⟩ ∧
        continuation codec publicId computedSecretHash awaited = some next ∧
        s' = { s with
          calls := s.calls.set index ⟨process, rawApiKey, next.phase, failed⟩
          localCache := s.setLocal process publicId next.stores
          inFlight := s.inFlight ++ next.caches.toList } := by
  simp only [resume] at taken
  split at taken
  · rename_i process rawApiKey publicId computedSecretHash awaited failed call
    obtain ⟨next, goesOn, rfl⟩ := Option.map_eq_some_iff.mp taken
    exact ⟨process, rawApiKey, publicId, computedSecretHash, awaited, failed, next, call, goesOn,
      rfl⟩
  · cases taken

theorem land_eq_some (taken : s.land codec position = some s') :
    ∃ record, s.inFlight[position]? = some record ∧
      s' = { s with
        inFlight := s.inFlight.eraseIdx position
        redis := s.setCacheValue (toCacheKey record.publicId) (codec.stringify record)
          redisPositiveTtlSeconds } := by
  obtain ⟨record, sent, rfl⟩ := Option.map_eq_some_iff.mp taken
  exact ⟨record, sent, rfl⟩

theorem lose_eq_some (taken : s.lose position = some s') :
    s' = { s with inFlight := s.inFlight.eraseIdx position } := by
  obtain ⟨record, -, rfl⟩ := Option.map_eq_some_iff.mp taken
  rfl

/-- An entry that a process serves after `setLocal`: the one that was put there, or an old one. -/
theorem entry_setLocal {process other now : ℕ} {publicId key : String}
    {stores : Option ApiKeyCacheRecord} {stored : Lasting ApiKeyCacheRecord}
    (served : (s.setLocal process publicId stores other).entry now key = some stored) :
    (other = process ∧ key = publicId ∧ ∃ record, stores = some record ∧
        stored = ⟨record, s.now, s.now + (localCacheTtlMs + 1)⟩) ∨
      (s.localCache other).entry now key = some stored := by
  cases stores with
  | none => exact .inr served
  | some record =>
      by_cases same : other = process
      · subst same
        rw [setLocal, Function.update_self] at served
        obtain ⟨here, new⟩ | ⟨-, old⟩ := ExpiringStore.entry_set served
        · exact .inl ⟨rfl, here, record, rfl, new⟩
        · exact .inr old
      · rw [setLocal, Function.update_of_ne same] at served
        exact .inr served

theorem entry_evictLocal {process other now : ℕ} {publicId key : String}
    {stored : Lasting ApiKeyCacheRecord}
    (served : (s.evictLocal process publicId other).entry now key = some stored) :
    (s.localCache other).entry now key = some stored := by
  by_cases same : other = process
  · subst same
    rw [evictLocal, Function.update_self] at served
    exact (ExpiringStore.entry_delete served).2
  · rw [evictLocal, Function.update_of_ne same] at served
    exact served

end Inversion

end AuthState

/-! ## Keys of Redis -/

theorem toCacheKey_injective : Function.Injective toCacheKey :=
  fun _ _ same => (String.append_right_inj _).mp same

theorem toNegativeCacheKey_injective : Function.Injective toNegativeCacheKey :=
  fun _ _ same => (String.append_right_inj _).mp same

/-- A positive and a negative entry have different keys. -/
theorem toCacheKey_ne (publicId publicId' : String) :
    toCacheKey publicId ≠ toNegativeCacheKey publicId' := by
  intro same
  have lists := congrArg (fun text => text.toList.take 10) same
  simp [toCacheKey, toNegativeCacheKey] at lists

/-! ## Records of the database -/

/-- A record that is looked up has the public id that it is looked up by. -/
theorem publicId_of_lookup {apiKeys : List ApiKeyRow} {publicId : String}
    {record : ApiKeyCacheRecord} (found : lookupApiKeyRecord apiKeys publicId = some record) :
    record.publicId = publicId := by
  simp only [lookupApiKeyRecord] at found
  split at found
  · cases found
  · rename_i row here
    split at found
    · cases found
    · obtain rfl := Option.some.inj found
      have same := List.find?_some here
      simpa using same

theorem validateRecord_eq_ok {record : ApiKeyCacheRecord} {computedSecretHash : String}
    {consumer : ApiConsumer} : validateRecord record computedSecretHash = .ok consumer ↔
      record.isActive = true ∧ record.secretHash = computedSecretHash ∧
        consumer = .apiKey record.consumer := by
  have equal := @timingSafeEqualHex_iff computedSecretHash record.secretHash
  rw [validateRecord]
  cases active : record.isActive with
  | false => simp
  | true =>
      cases compared : timingSafeEqualHex computedSecretHash record.secretHash with
      | false =>
          rw [compared] at equal
          have different : record.secretHash ≠ computedSecretHash :=
            fun same => by simpa using equal.mpr same.symm
          simp [different]
      | true =>
          have same := equal.mp compared
          simp [same, eq_comm]

end EliteHubVault
