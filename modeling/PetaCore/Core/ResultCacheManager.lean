import PetaCore.Core.CacheKeyBuilder
import PetaCore.Core.ResultCacheStore

/-!
# ResultCacheManager

What a cached request is, whose cache it uses, and under which keys the store is asked for it:
the versions of its three namespaces, its entry and its admission counter.
-/

namespace PetaCore

/-- `ResolvedCachePolicy` -/
structure ResolvedCachePolicy where
  enabled : Bool
  ttlSeconds : Nat
  scope : CacheScope
  admissionPolicy : AdmissionPolicy
  admissionWindowSeconds : Nat
  denyFields : List String
  allowFields : Option (List String)
  maxEntryBytes : Nat

/-- `CacheScopeContext` -/
structure CacheScopeContext where
  userId : Option String
  tenantId : Option String

/-- The part of `ResultCacheConfig` that decides about keys. -/
structure ResultCacheConfig where
  enabled : Bool
  keyPrefix : String

/-- The arguments by which a request is looked up, stored and purged. -/
structure CacheRequest where
  operation : CacheOperationType
  serverId : String
  entityId : String
  scopeContext : CacheScopeContext
  policy : ResolvedCachePolicy
  requestParams : Option Json

/-- `resolveScopeIdentity` -/
def resolveScopeIdentity (scopeContext : CacheScopeContext) (scopeType : CacheScope) :
    Option String :=
  match scopeType with
  | .global => some "global"
  | .user => scopeContext.userId
  | .tenant => scopeContext.tenantId

namespace CacheRequest

/-- The scope identity of a request; an empty one counts as missing. -/
def scopeIdentity (r : CacheRequest) : Option String :=
  (resolveScopeIdentity r.scopeContext r.policy.scope).filter (· ≠ "")

/-- The hash of the parameters that the policy leaves. -/
def requestHash (sha256 : String → String) (r : CacheRequest) : String :=
  canonicalizeParams sha256 r.requestParams r.policy.denyFields r.policy.allowFields

end CacheRequest

/-! ## Keys -/

/-- The three namespaces of a request. -/
inductive NamespaceSlot where
  | «global»
  | server
  | entity
deriving DecidableEq

/-- `getNamespaceKeys` -/
def getNamespaceKeys (sha256 : String → String) (keyPrefix : String)
    (operation : CacheOperationType) (serverId entityId : String) : NamespaceSlot → String
  | .global => buildNamespaceKey keyPrefix ["global"]
  | .server => buildNamespaceKey keyPrefix ["server", serverId]
  | .entity =>
    match operation with
    | .tool => buildNamespaceKey keyPrefix ["tool", serverId, entityId]
    | .prompt => buildNamespaceKey keyPrefix ["prompt", serverId, entityId]
    | .resource =>
      buildNamespaceKey keyPrefix ["resource", serverId, buildEntityHash sha256 entityId]

namespace CacheNamespaceVersions

/-- The version of a namespace. -/
def get (v : CacheNamespaceVersions) : NamespaceSlot → Nat
  | .global => v.globalVersion
  | .server => v.serverVersion
  | .entity => v.entityVersion

end CacheNamespaceVersions

namespace CacheRequest

variable (sha256 : String → String) (config : ResultCacheConfig)

/-- The key of one of the namespaces of a request. -/
def namespaceKey (r : CacheRequest) (slot : NamespaceSlot) : String :=
  getNamespaceKeys sha256 config.keyPrefix r.operation r.serverId r.entityId slot

/-- The components of the keys of a request with this scope identity. -/
def keyParts (r : CacheRequest) (scopeIdentity : String) (versions : CacheNamespaceVersions) :
    CacheKeyParts where
  operation := r.operation
  serverId := r.serverId
  entityHash := buildEntityHash sha256 r.entityId
  scopeType := r.policy.scope
  scopeHash := buildScopeHash sha256 scopeIdentity
  versions := versions
  requestHash := r.requestHash sha256

/-- The `entryKey` of a request. -/
def entryKey (r : CacheRequest) (scopeIdentity : String) (versions : CacheNamespaceVersions) :
    String :=
  buildResultEntryKey config.keyPrefix (r.keyParts sha256 scopeIdentity versions)

/-- The `admissionKey` of a request. -/
def admissionKey (r : CacheRequest) (scopeIdentity : String)
    (versions : CacheNamespaceVersions) : String :=
  buildAdmissionKey config.keyPrefix (r.keyParts sha256 scopeIdentity versions)

end CacheRequest

end PetaCore
