import PetaCore.ForStd.Dict

/-!
# ResultCacheStore

The admission counters of the three stores of the result cache: a `Map` in the memory of the
process, a Lua script on Redis and an upsert on the database. Times are milliseconds of one
clock, which the three of them share.

The documentation of Redis leaves open whether a key can still be seen in the millisecond in
which its timeout ends (its expiration is exact up to one millisecond), so this is a parameter
of the Redis store.
-/

namespace PetaCore

/-- `AdmissionPolicy` -/
inductive AdmissionPolicy where
  | immediate
  | secondHit
deriving DecidableEq

/-- `shouldPromote` -/
def shouldPromote (admissionCount : Nat) (admissionPolicy : AdmissionPolicy) : Bool :=
  match admissionPolicy with
  | .immediate => true
  | .secondHit => decide (2 ≤ admissionCount)

/-- `AdmissionEntry`; a counter of Redis with its timeout, and a row of
    `result_cache_admission_counters`, are of the same shape. -/
structure AdmissionEntry where
  count : Nat
  expiresAt : Nat
deriving DecidableEq

/-- A counter that starts. -/
def AdmissionEntry.start (now windowSeconds : Nat) : AdmissionEntry :=
  ⟨1, now + windowSeconds * 1000⟩

/-- The admission part of the interface `ResultCacheStore`, for a store whose state is `σ`.
    `sweep` is the background removal of expired counters; `batch` are the keys it looks at. -/
structure ResultCacheStore (σ : Type) where
  init : σ
  recordAdmissionAttempt : σ → Nat → String → Nat → σ × Nat
  getAdmissionCount : σ → Nat → String → Nat
  clearAdmission : σ → String → σ
  sweep : σ → Nat → List String → σ

/-! ## MemoryResultCacheStore -/

namespace MemoryResultCacheStore

/-- `recordAdmissionAttempt` -/
def recordAdmissionAttempt (admissions : Dict AdmissionEntry) (now : Nat) (admissionKey : String)
    (windowSeconds : Nat) : Dict AdmissionEntry × Nat :=
  let entry := AdmissionEntry.start now windowSeconds
  match admissions.get? admissionKey with
  | none => (admissions.set admissionKey entry, 1)
  | some existing =>
    if now < existing.expiresAt then
      (admissions.set admissionKey { existing with count := existing.count + 1 },
        existing.count + 1)
    else (admissions.set admissionKey entry, 1)

/-- `getAdmissionCount` -/
def getAdmissionCount (admissions : Dict AdmissionEntry) (now : Nat) (admissionKey : String) :
    Nat :=
  match admissions.get? admissionKey with
  | none => 0
  | some existing => if now ≥ existing.expiresAt then 0 else existing.count

/-- `sweep` -/
def sweep (admissions : Dict AdmissionEntry) (now : Nat) : Dict AdmissionEntry :=
  admissions.filter fun entry => !decide (now ≥ entry.expiresAt)

end MemoryResultCacheStore

/-- `MemoryResultCacheStore` -/
def memoryStore : ResultCacheStore (Dict AdmissionEntry) where
  init := .empty
  recordAdmissionAttempt := MemoryResultCacheStore.recordAdmissionAttempt
  getAdmissionCount := MemoryResultCacheStore.getAdmissionCount
  clearAdmission := Dict.erase
  sweep admissions now _ := MemoryResultCacheStore.sweep admissions now

/-! ## RedisResultCacheStore -/

namespace RedisResultCacheStore

/-- Whether a key with this timeout can still be seen. -/
def isVisible (atTimeout : Bool) (now expiresAt : Nat) : Bool :=
  decide (now < expiresAt) || (atTimeout && decide (now = expiresAt))

/-- `GET` -/
def get (atTimeout : Bool) (keys : Dict AdmissionEntry) (now : Nat) (key : String) :
    Option AdmissionEntry :=
  (keys.get? key).filter fun entry => isVisible atTimeout now entry.expiresAt

/-- `EXPIRE` on a key that exists: without time left, the key is deleted. -/
def expire (keys : Dict AdmissionEntry) (now : Nat) (key : String) (count seconds : Nat) :
    Dict AdmissionEntry :=
  if seconds = 0 then keys.erase key else keys.set key ⟨count, now + seconds * 1000⟩

/-- `ADMISSION_RECORD_LUA`: `INCR`, which takes a key that cannot be seen as 0, and `EXPIRE`. -/
def recordAdmissionAttempt (atTimeout : Bool) (keys : Dict AdmissionEntry) (now : Nat)
    (admissionKey : String) (windowSeconds : Nat) : Dict AdmissionEntry × Nat :=
  let count := ((get atTimeout keys now admissionKey).map (·.count)).getD 0 + 1
  (expire keys now admissionKey count windowSeconds, count)

/-- `getAdmissionCount` -/
def getAdmissionCount (atTimeout : Bool) (keys : Dict AdmissionEntry) (now : Nat)
    (admissionKey : String) : Nat :=
  ((get atTimeout keys now admissionKey).map (·.count)).getD 0

end RedisResultCacheStore

/-- `RedisResultCacheStore`, which has no sweeper of its own. -/
def redisStore (atTimeout : Bool) : ResultCacheStore (Dict AdmissionEntry) where
  init := .empty
  recordAdmissionAttempt := RedisResultCacheStore.recordAdmissionAttempt atTimeout
  getAdmissionCount := RedisResultCacheStore.getAdmissionCount atTimeout
  clearAdmission := Dict.erase
  sweep keys _ _ := keys

/-! ## DbResultCacheStore -/

namespace ResultCacheAdmissionRepository

/-- `recordAttempt`: the count starts again only when the row has expired before `NOW()`, and
    every attempt moves `expires_at`. -/
def recordAttempt (rows : Dict AdmissionEntry) (now : Nat) (admissionKey : String)
    (windowSeconds : Nat) : Dict AdmissionEntry × Nat :=
  let observationCount :=
    match rows.get? admissionKey with
    | none => 1
    | some row => if row.expiresAt < now then 1 else row.count + 1
  (rows.set admissionKey ⟨observationCount, now + windowSeconds * 1000⟩, observationCount)

/-- `getCount` -/
def getCount (rows : Dict AdmissionEntry) (now : Nat) (admissionKey : String) : Nat :=
  match rows.get? admissionKey with
  | none => 0
  | some row => if row.expiresAt > now then row.count else 0

/-- `cleanupExpired`, for the rows that the query selects. -/
def cleanupExpired (rows : Dict AdmissionEntry) (now : Nat) : List String → Dict AdmissionEntry
  | [] => rows
  | key :: batch =>
    match rows.get? key with
    | none => cleanupExpired rows now batch
    | some row =>
      if row.expiresAt < now then cleanupExpired (rows.erase key) now batch
      else cleanupExpired rows now batch

end ResultCacheAdmissionRepository

/-- `DbResultCacheStore` -/
def dbStore : ResultCacheStore (Dict AdmissionEntry) where
  init := .empty
  recordAdmissionAttempt := ResultCacheAdmissionRepository.recordAttempt
  getAdmissionCount := ResultCacheAdmissionRepository.getCount
  clearAdmission := Dict.erase
  sweep := ResultCacheAdmissionRepository.cleanupExpired

/-! ## Histories -/

/-- A call on the admission counters, or a sweep between two calls. -/
inductive AdmissionCall where
  | recordAdmissionAttempt (admissionKey : String) (windowSeconds : Nat)
  | getAdmissionCount (admissionKey : String)
  | clearAdmission (admissionKey : String)
  | sweep (batch : List String)
deriving DecidableEq

/-- A call and the time at which it is made. -/
structure TimedCall where
  now : Nat
  call : AdmissionCall
deriving DecidableEq

namespace ResultCacheStore

variable {σ : Type} (store : ResultCacheStore σ)

/-- The state after a call, and the count that it returns. -/
def apply (state : σ) (c : TimedCall) : σ × Option Nat :=
  match c.call with
  | .recordAdmissionAttempt key windowSeconds =>
    let (state', count) := store.recordAdmissionAttempt state c.now key windowSeconds
    (state', some count)
  | .getAdmissionCount key => (state, some (store.getAdmissionCount state c.now key))
  | .clearAdmission key => (store.clearAdmission state key, none)
  | .sweep batch => (store.sweep state c.now batch, none)

/-- The counts that the calls of a history return. -/
def countsFrom (state : σ) : List TimedCall → List (Option Nat)
  | [] => []
  | c :: calls => (store.apply state c).2 :: countsFrom (store.apply state c).1 calls

/-- The counts that a new store returns. -/
def counts (calls : List TimedCall) : List (Option Nat) := store.countsFrom store.init calls

end ResultCacheStore

end PetaCore
