import PetaCore.ForStd.Run
import PetaCore.Core.ResultCacheManager

/-!
# ResultCacheService

`executeWithCache`, the background stores it starts and the purges of `ResultCacheManager`, as
one system. Between two waits the source runs without interruption, so a step is what happens
between two waits: an operation of the store backend with what follows from its answer, or the
start or the end of a call. Every operation of the backend may fail, and an entry or a counter
may expire at any time; the deletion of an entry that cannot be read is such an expiry.

A call is known by its place in `calls`, a purge by its place in `purges`. The clock counts
steps. It is read by nothing, and is there, like the producer of an entry, to say what happened
before what.
-/

namespace PetaCore

/-! ## Versions as they are read -/

/-- The versions that `Promise.all` has read so far. -/
structure VersionReads where
  globalVersion : Option Nat
  serverVersion : Option Nat
  entityVersion : Option Nat

namespace VersionReads

def empty : VersionReads := ⟨none, none, none⟩

def get (reads : VersionReads) : NamespaceSlot → Option Nat
  | .global => reads.globalVersion
  | .server => reads.serverVersion
  | .entity => reads.entityVersion

def set (reads : VersionReads) (slot : NamespaceSlot) (version : Nat) : VersionReads :=
  match slot with
  | .global => { reads with globalVersion := some version }
  | .server => { reads with serverVersion := some version }
  | .entity => { reads with entityVersion := some version }

/-- The versions, once all three are there. -/
def versions? (reads : VersionReads) : Option CacheNamespaceVersions :=
  match reads.globalVersion, reads.serverVersion, reads.entityVersion with
  | some globalVersion, some serverVersion, some entityVersion =>
    some ⟨globalVersion, serverVersion, entityVersion⟩
  | _, _, _ => none

/-- What `resolveRuntimeContext` starts from: the captured versions, or nothing. -/
def ofCaptured (captured : Option CacheNamespaceVersions) : VersionReads :=
  match captured with
  | some v => ⟨some v.globalVersion, some v.serverVersion, some v.entityVersion⟩
  | none => empty

end VersionReads

/-! ## Calls -/

/-- The checks and functions from outside: the digest, the configuration, and whether a result
    passes the size checks of `store`. -/
structure CacheEnv where
  sha256 : String → String
  config : ResultCacheConfig
  fitsEntry : ResolvedCachePolicy → Json → Bool

/-- Where a call is. -/
inductive CallPhase where
  /-- in `lookup` -/
  | looking
  /-- `lookup` has returned without a hit -/
  | looked
  /-- waits for its own factory, outside the registry -/
  | direct
  /-- waits for its own factory, which is in the registry -/
  | leading
  /-- waits for the factory of another call -/
  | following (leader : Nat)
  | finished
deriving DecidableEq

/-- Where `storeResult` is: in a round of the admission loop, in `store`, or in
    `clearAdmission`. -/
inductive StorePhase where
  | record (roundsLeft : Nat) (reads : VersionReads)
  | store (reads : VersionReads)
  | clear (reads : VersionReads)

/-- Where the result of a call comes from: an entry, with the call that produced it, the flight
    of another call, or the call's own factory. -/
inductive ResultSource where
  | cached (producer : Nat)
  | coalesced (leader : Nat)
  | own
deriving DecidableEq

/-- A call of `executeWithCache`. Its `reads` are `lookupVersions` once `lookup` has returned;
    `settled` is the outcome of its own factory. -/
structure CacheCall where
  request : CacheRequest
  begunAt : Nat
  phase : CallPhase
  reads : VersionReads
  factoryAt : Option Nat
  settled : Option (Except String Json)
  source : Option ResultSource
  background : Option StorePhase

/-- `lookupVersions` of a call that `lookup` has returned to. -/
def CacheCall.lookupVersions (call : CacheCall) : Option CacheNamespaceVersions :=
  call.reads.versions?

/-- `SingleflightRegistry`: an entry of `inflight`. -/
structure Flight where
  leader : Nat
  observerCount : Nat

/-- The text of `versionSuffix`. -/
def versionSuffix (lookupVersions : Option CacheNamespaceVersions) : String :=
  match lookupVersions with
  | some v =>
    ":" ++ toString v.globalVersion ++ ":" ++ toString v.serverVersion ++ ":" ++
      toString v.entityVersion
  | none => ""

/-- `cacheKeyForSingleflight` -/
def singleflightKey (sha256 : String → String) (r : CacheRequest) (scopeIdentity : String)
    (lookupVersions : Option CacheNamespaceVersions) : String :=
  "sf:" ++ r.operation.value ++ ":" ++ r.serverId ++ ":" ++ r.entityId ++ ":" ++ scopeIdentity ++
    ":" ++ r.requestHash sha256 ++ versionSuffix lookupVersions

/-- `isToolResultCacheable` -/
def isToolResultCacheable (result : Json) : Bool :=
  match result with
  | .obj members =>
    match members.lookup "isError" with
    | some (.bool isError) => !isError
    | _ => true
  | _ => true

/-! ## Purges -/

/-- The purges of `ResultCacheManager`. -/
inductive PurgeTarget where
  | «global»
  | server (serverId : String)
  | tool (serverId toolName : String)
  | prompt (serverId promptName : String)
  | resource (serverId uri : String)
  | exact (request : CacheRequest)

/-- The namespace that a purge bumps; `purgeExact` bumps none. -/
def PurgeTarget.namespaceKey? (sha256 : String → String) (keyPrefix : String) :
    PurgeTarget → Option String
  | .global => some (buildNamespaceKey keyPrefix ["global"])
  | .server serverId => some (buildNamespaceKey keyPrefix ["server", serverId])
  | .tool serverId toolName => some (buildNamespaceKey keyPrefix ["tool", serverId, toolName])
  | .prompt serverId promptName =>
    some (buildNamespaceKey keyPrefix ["prompt", serverId, promptName])
  | .resource serverId uri =>
    some (buildNamespaceKey keyPrefix ["resource", serverId, buildEntityHash sha256 uri])
  | .exact _ => none

/-- A purge. `bumpedTo` is the answer of `bumpNamespaceVersion`; `reads`, `deleted` and
    `cleared` are the progress of `purgeExact`, which `failed` when it throws. -/
structure PurgeRecord where
  target : PurgeTarget
  issuedAt : Nat
  reads : VersionReads
  bumpedTo : Option Nat
  deleted : Bool
  cleared : Bool
  failed : Bool
  returnedAt : Option Nat

/-- Whether a purge still has something to do. -/
def PurgeRecord.isOpen (p : PurgeRecord) : Bool := p.returnedAt.isNone && !p.failed

/-- `purgeExact` returns when both deletions have succeeded. -/
def PurgeRecord.finishExact (p : PurgeRecord) (clock : Nat) : PurgeRecord :=
  if p.deleted && p.cleared then { p with returnedAt := some clock } else p

/-! ## State -/

/-- A stored entry. -/
structure CacheEntry where
  payload : Json
  producer : Nat

structure CacheState where
  clock : Nat
  versions : Dict Nat
  entries : Dict CacheEntry
  admissions : Dict Nat
  inflight : Dict Flight
  calls : List CacheCall
  purges : List PurgeRecord

namespace CacheState

def init : CacheState := ⟨0, .empty, .empty, .empty, .empty, [], []⟩

/-- `getNamespaceVersion` -/
def getNamespaceVersion (s : CacheState) (namespaceKey : String) : Nat :=
  (s.versions.get? namespaceKey).getD 0

/-- The state after a step that changes one call. -/
def setCall (s : CacheState) (c : Nat) (call : CacheCall) : CacheState :=
  { s with clock := s.clock + 1, calls := s.calls.set c call }

/-- The state after a step that changes one purge. -/
def setPurge (s : CacheState) (i : Nat) (p : PurgeRecord) : CacheState :=
  { s with clock := s.clock + 1, purges := s.purges.set i p }

end CacheState

/-! ## Steps -/

/-- What the backend answers to `get`: an answer, an error, or bytes that cannot be read. -/
inductive GetReply where
  | answered
  | failed
  | corrupt
deriving DecidableEq

inductive CacheAction where
  | begin (request : CacheRequest)
  | readVersion (c : Nat) (slot : NamespaceSlot) (ok : Bool)
  | getEntry (c : Nat) (reply : GetReply)
  | enter (c : Nat)
  | settle (c : Nat) (outcome : Except String Json)
  | release (c : Nat)
  | resume (c : Nat)
  | storeRead (c : Nat) (slot : NamespaceSlot) (ok : Bool)
  | storeWrite (c : Nat) (ok : Bool)
  | purge (target : PurgeTarget)
  | bump (p : Nat) (ok : Bool)
  | purgeRead (p : Nat) (slot : NamespaceSlot) (ok : Bool)
  | purgeDelete (p : Nat) (ok : Bool)
  | purgeClear (p : Nat) (ok : Bool)
  | expire (entryKey : String)
  | expireAdmission (admissionKey : String)

namespace CacheSystem

variable (env : CacheEnv)

/-- Whether the cache is used at all for a request. -/
def isEnabled (r : CacheRequest) : Bool := env.config.enabled && r.policy.enabled

/-- `executeWithCache` is called: `lookup` reads versions, or returns at once. -/
def begin (s : CacheState) (r : CacheRequest) : Option CacheState :=
  let phase := if isEnabled env r && r.scopeIdentity.isSome then CallPhase.looking else .looked
  some { s with
    clock := s.clock + 1
    calls := s.calls ++ [⟨r, s.clock, phase, .empty, none, none, none, none⟩] }

/-- `lookup` reads a version. Without all of them it returns without versions. -/
def readVersion (s : CacheState) (c : Nat) (slot : NamespaceSlot) (ok : Bool) :
    Option CacheState :=
  match s.calls[c]? with
  | none => none
  | some call =>
    if call.phase = .looking ∧ call.reads.get slot = none then
      if ok then
        let version := s.getNamespaceVersion (call.request.namespaceKey env.sha256 env.config slot)
        some (s.setCall c { call with reads := call.reads.set slot version })
      else some (s.setCall c { call with phase := .looked, reads := .empty })
    else none

/-- `lookup` asks for the entry. -/
def getEntry (s : CacheState) (c : Nat) (reply : GetReply) : Option CacheState :=
  match s.calls[c]? with
  | none => none
  | some call =>
    match call.phase, call.reads.versions?, call.request.scopeIdentity with
    | .looking, some versions, some scopeIdentity =>
      let entryKey := call.request.entryKey env.sha256 env.config scopeIdentity versions
      match reply, s.entries.get? entryKey with
      | .answered, some entry =>
        some (s.setCall c
          { call with phase := .finished, source := some (.cached entry.producer) })
      | _, _ => some (s.setCall c { call with phase := .looked })
    | _, _, _ => none

/-- After `lookup`: without an identity the factory is called directly, else the call joins a
    flight with its key or starts one. -/
def enter (s : CacheState) (c : Nat) : Option CacheState :=
  match s.calls[c]? with
  | none => none
  | some call =>
    if call.phase = .looked then
      match call.request.scopeIdentity with
      | none =>
        some (s.setCall c
          { call with phase := .direct, factoryAt := some s.clock, source := some .own })
      | some scopeIdentity =>
        let key := singleflightKey env.sha256 call.request scopeIdentity call.lookupVersions
        match s.inflight.get? key with
        | some flight =>
          let call' := { call with
            phase := .following flight.leader
            source := some (.coalesced flight.leader) }
          some { (s.setCall c call') with
            inflight := s.inflight.set key ⟨flight.leader, flight.observerCount + 1⟩ }
        | none =>
          let call' := { call with
            phase := .leading
            factoryAt := some s.clock
            source := some .own }
          some { (s.setCall c call') with inflight := s.inflight.set key ⟨c, 0⟩ }
    else none

/-- A factory answers. -/
def settle (s : CacheState) (c : Nat) (outcome : Except String Json) : Option CacheState :=
  match s.calls[c]? with
  | none => none
  | some call =>
    match call.phase, call.settled with
    | .direct, none =>
      some (s.setCall c { call with phase := .finished, settled := some outcome })
    | .leading, none => some (s.setCall c { call with settled := some outcome })
    | _, _ => none

/-- How `storeResult` starts for the result of a leader. -/
def startStore (r : CacheRequest) (captured : Option CacheNamespaceVersions) (result : Json)
    (requestCount : Nat) : Option StorePhase :=
  if r.operation = .tool ∧ isToolResultCacheable result = false then none
  else if isEnabled env r = false then none
  else
    match r.policy.admissionPolicy with
    | .immediate => some (.store (.ofCaptured captured))
    | .secondHit => some (.record (max 1 requestCount) (.ofCaptured captured))

/-- A leader goes on after its factory: it leaves the registry and starts the store. -/
def release (s : CacheState) (c : Nat) : Option CacheState :=
  match s.calls[c]? with
  | none => none
  | some call =>
    match call.phase, call.settled, call.request.scopeIdentity with
    | .leading, some outcome, some scopeIdentity =>
      let key := singleflightKey env.sha256 call.request scopeIdentity call.lookupVersions
      let observerCount := ((s.inflight.get? key).map (·.observerCount)).getD 0
      let inflight :=
        if (s.inflight.get? key).map (·.leader) = some c then s.inflight.erase key else s.inflight
      let background :=
        match outcome with
        | .ok result => startStore env call.request call.lookupVersions result (observerCount + 1)
        | .error _ => none
      some { (s.setCall c { call with phase := .finished, background := background }) with
        inflight := inflight }
    | _, _, _ => none

/-- A follower goes on with the outcome of its leader. -/
def resume (s : CacheState) (c : Nat) : Option CacheState :=
  match s.calls[c]? with
  | none => none
  | some call =>
    match call.phase with
    | .following leader =>
      match s.calls[leader]? with
      | some leaderCall =>
        if leaderCall.settled.isSome then some (s.setCall c { call with phase := .finished })
        else none
      | none => none
    | _ => none

/-- What follows a round of the admission loop that has counted `count`. -/
def afterRecord (policy : ResolvedCachePolicy) (captured : Option CacheNamespaceVersions)
    (roundsLeft count : Nat) : Option StorePhase :=
  if roundsLeft ≤ 1 then
    if shouldPromote count policy.admissionPolicy then some (.store (.ofCaptured captured))
    else none
  else some (.record (roundsLeft - 1) (.ofCaptured captured))

/-- `storeResult` reads a version that was not captured. -/
def storeRead (s : CacheState) (c : Nat) (slot : NamespaceSlot) (ok : Bool) :
    Option CacheState :=
  match s.calls[c]? with
  | none => none
  | some call =>
    let version := s.getNamespaceVersion (call.request.namespaceKey env.sha256 env.config slot)
    match call.background with
    | none => none
    | some (.record roundsLeft reads) =>
      if reads.get slot = none then
        -- a round that cannot read its versions counts nothing
        let next := if ok then some (.record roundsLeft (reads.set slot version))
          else afterRecord call.request.policy call.lookupVersions roundsLeft 0
        some (s.setCall c { call with background := next })
      else none
    | some (.store reads) =>
      if reads.get slot = none then
        let next := if ok then some (.store (reads.set slot version)) else none
        some (s.setCall c { call with background := next })
      else none
    | some (.clear reads) =>
      if reads.get slot = none then
        let next := if ok then some (.clear (reads.set slot version)) else none
        some (s.setCall c { call with background := next })
      else none

/-- `storeResult` counts an observation, stores the entry or clears the counter. -/
def storeWrite (s : CacheState) (c : Nat) (ok : Bool) : Option CacheState :=
  match s.calls[c]? with
  | none => none
  | some call =>
    match call.request.scopeIdentity, call.background with
    | some scopeIdentity, some (.record roundsLeft reads) =>
      match reads.versions? with
      | none => none
      | some versions =>
        let admissionKey := call.request.admissionKey env.sha256 env.config scopeIdentity versions
        let count := if ok then (s.admissions.get? admissionKey).getD 0 + 1 else 0
        let call' := { call with
          background := afterRecord call.request.policy call.lookupVersions roundsLeft count }
        some { (s.setCall c call') with
          admissions := if ok then s.admissions.set admissionKey count else s.admissions }
    | some scopeIdentity, some (.store reads) =>
      match reads.versions?, call.settled with
      | some versions, some (.ok result) =>
        let entryKey := call.request.entryKey env.sha256 env.config scopeIdentity versions
        if ok && env.fitsEntry call.request.policy result then
          let next :=
            if call.request.policy.admissionPolicy = .secondHit then some (.clear .empty) else none
          some { (s.setCall c { call with background := next }) with
            entries := s.entries.set entryKey ⟨result, c⟩ }
        else some (s.setCall c { call with background := none })
      | _, _ => none
    | some scopeIdentity, some (.clear reads) =>
      match reads.versions? with
      | none => none
      | some versions =>
        let admissionKey := call.request.admissionKey env.sha256 env.config scopeIdentity versions
        some { (s.setCall c { call with background := none }) with
          admissions := if ok then s.admissions.erase admissionKey else s.admissions }
    | _, _ => none

/-- A purge is issued. `purgeExact` without an identity returns at once. -/
def purge (s : CacheState) (target : PurgeTarget) : Option CacheState :=
  let returnedAt :=
    match target with
    | .exact r => if r.scopeIdentity = none then some s.clock else none
    | _ => none
  some { s with
    clock := s.clock + 1
    purges := s.purges ++ [⟨target, s.clock, .empty, none, false, false, false, returnedAt⟩] }

/-- `bumpNamespace`, which returns in any case. -/
def bump (s : CacheState) (i : Nat) (ok : Bool) : Option CacheState :=
  match s.purges[i]? with
  | none => none
  | some p =>
    match p.target.namespaceKey? env.sha256 env.config.keyPrefix with
    | none => none
    | some namespaceKey =>
      if p.isOpen then
        let next := s.getNamespaceVersion namespaceKey + 1
        if ok then
          some { (s.setPurge i { p with bumpedTo := some next, returnedAt := some s.clock }) with
            versions := s.versions.set namespaceKey next }
        else some (s.setPurge i { p with returnedAt := some s.clock })
      else none

/-- `purgeExact` reads a version. Without all of them it returns without deleting. -/
def purgeRead (s : CacheState) (i : Nat) (slot : NamespaceSlot) (ok : Bool) :
    Option CacheState :=
  match s.purges[i]? with
  | none => none
  | some p =>
    match p.target with
    | .exact r =>
      if p.isOpen ∧ p.reads.get slot = none then
        if ok then
          let version := s.getNamespaceVersion (r.namespaceKey env.sha256 env.config slot)
          some (s.setPurge i { p with reads := p.reads.set slot version })
        else some (s.setPurge i { p with returnedAt := some s.clock })
      else none
    | _ => none

/-- `purgeExact` deletes the entry. -/
def purgeDelete (s : CacheState) (i : Nat) (ok : Bool) : Option CacheState :=
  match s.purges[i]? with
  | none => none
  | some p =>
    match p.target with
    | .exact r =>
      match p.reads.versions?, r.scopeIdentity with
      | some versions, some scopeIdentity =>
        if p.isOpen ∧ p.deleted = false then
          if ok then
            some { (s.setPurge i ({ p with deleted := true }.finishExact s.clock)) with
              entries := s.entries.erase
                (r.entryKey env.sha256 env.config scopeIdentity versions) }
          else some (s.setPurge i { p with failed := true })
        else none
      | _, _ => none
    | _ => none

/-- `purgeExact` clears the admission counter. -/
def purgeClear (s : CacheState) (i : Nat) (ok : Bool) : Option CacheState :=
  match s.purges[i]? with
  | none => none
  | some p =>
    match p.target with
    | .exact r =>
      match p.reads.versions?, r.scopeIdentity with
      | some versions, some scopeIdentity =>
        if p.isOpen ∧ p.cleared = false then
          if ok then
            some { (s.setPurge i ({ p with cleared := true }.finishExact s.clock)) with
              admissions := s.admissions.erase
                (r.admissionKey env.sha256 env.config scopeIdentity versions) }
          else some (s.setPurge i { p with failed := true })
        else none
      | _, _ => none
    | _ => none

/-- One step of the result cache. -/
def step (s : CacheState) : CacheAction → Option CacheState
  | .begin request => begin env s request
  | .readVersion c slot ok => readVersion env s c slot ok
  | .getEntry c reply => getEntry env s c reply
  | .enter c => enter env s c
  | .settle c outcome => settle s c outcome
  | .release c => release env s c
  | .resume c => resume s c
  | .storeRead c slot ok => storeRead env s c slot ok
  | .storeWrite c ok => storeWrite env s c ok
  | .purge target => purge s target
  | .bump p ok => bump env s p ok
  | .purgeRead p slot ok => purgeRead env s p slot ok
  | .purgeDelete p ok => purgeDelete env s p ok
  | .purgeClear p ok => purgeClear env s p ok
  | .expire entryKey => some { s with clock := s.clock + 1, entries := s.entries.erase entryKey }
  | .expireAdmission admissionKey =>
    some { s with clock := s.clock + 1, admissions := s.admissions.erase admissionKey }

end CacheSystem

end PetaCore
