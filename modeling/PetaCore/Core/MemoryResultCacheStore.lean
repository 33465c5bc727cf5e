import Mathlib.Algebra.Order.Ring.Unbundled.Rat
import PetaCore.ForStd.Dict

/-!
# MemoryResultCacheStore

The entries and the namespace versions of the cache store in the memory of the process. A clock in
milliseconds goes on between the operations, and within a `set` between the eviction and the
storing. The times to live come from the policies, in seconds and not always whole ones.
-/

namespace PetaCore

/-- `MemoryEntry` -/
structure MemoryEntry where
  value : List UInt8
  expiresAt : Rat
deriving DecidableEq

/-- `Date.now() >= entry.expiresAt` -/
def MemoryEntry.isExpired (now : Nat) (entry : MemoryEntry) : Bool := entry.expiresAt ≤ (now : Rat)

/-- The state of a `MemoryResultCacheStore`, with the clock. -/
structure MemoryCache where
  entries : Dict MemoryEntry
  namespaces : Dict Nat
  now : Nat
deriving DecidableEq

inductive MemoryAction where
  | tick (time : Nat)
  | get (entryKey : String)
  /-- `elapsed` is the time between the two readings of the clock -/
  | set (entryKey : String) (value : List UInt8) (ttlSeconds : Rat) (elapsed : Nat)
  | delete (entryKey : String)
  | bumpNamespaceVersion (namespaceKey : String)
  | sweep
deriving DecidableEq

namespace MemoryCache

def init (now : Nat) : MemoryCache := ⟨.empty, .empty, now⟩

/-- `get`: what it returns. -/
def get (s : MemoryCache) (entryKey : String) : Option (List UInt8) :=
  match s.entries.get? entryKey with
  | none => none
  | some entry => if entry.isExpired s.now then none else some entry.value

/-- `get`: what it leaves. -/
def afterGet (s : MemoryCache) (entryKey : String) : MemoryCache :=
  match s.entries.get? entryKey with
  | none => s
  | some entry => if entry.isExpired s.now then { s with entries := s.entries.erase entryKey } else s

/-- The loop of `evictOldest` that looks for the first entry with the least expiry. -/
def oldest (entries : List (String × MemoryEntry)) : Option (String × MemoryEntry) :=
  entries.foldl (fun oldest e =>
    match oldest with
    | none => some e
    | some o => if e.2.expiresAt < o.2.expiresAt then some e else some o) none

/-- The loop that deletes the expired entries. -/
def unexpired (s : MemoryCache) : Dict MemoryEntry :=
  s.entries.filter fun entry => !entry.isExpired s.now

/-- `evictOldest` -/
def evictOldest (maxEntries : Nat) (s : MemoryCache) : Dict MemoryEntry :=
  if maxEntries ≤ s.unexpired.size then
    match oldest s.unexpired.entries with
    | some (oldestKey, _) => if oldestKey = "" then s.unexpired else s.unexpired.erase oldestKey
    | none => s.unexpired
  else s.unexpired

/-- What `set` leaves of the other entries before it stores its own. -/
def makeRoom (maxEntries : Nat) (s : MemoryCache) (entryKey : String) : Dict MemoryEntry :=
  if maxEntries ≤ s.entries.size ∧ s.entries.get? entryKey = none then s.evictOldest maxEntries
  else s.entries

/-- The entry that a `set` stores. -/
def newEntry (s : MemoryCache) (value : List UInt8) (ttlSeconds : Rat) (elapsed : Nat) :
    MemoryEntry :=
  ⟨value, ((s.now + elapsed : Nat) : Rat) + ttlSeconds * 1000⟩

/-- `set` -/
def set (maxEntries : Nat) (s : MemoryCache) (entryKey : String) (value : List UInt8)
    (ttlSeconds : Rat) (elapsed : Nat) : MemoryCache :=
  { s with
    entries := (s.makeRoom maxEntries entryKey).set entryKey (s.newEntry value ttlSeconds elapsed)
    now := s.now + elapsed }

/-- `getNamespaceVersion` -/
def getNamespaceVersion (s : MemoryCache) (namespaceKey : String) : Nat :=
  (s.namespaces.get? namespaceKey).getD 0

/-- `bumpNamespaceVersion` -/
def bumpNamespaceVersion (s : MemoryCache) (namespaceKey : String) : MemoryCache :=
  let current := (s.namespaces.get? namespaceKey).getD 0
  { s with namespaces := s.namespaces.set namespaceKey (current + 1) }

def step (maxEntries : Nat) (s : MemoryCache) : MemoryAction → Option MemoryCache
  | .tick time => some { s with now := s.now + time }
  | .get entryKey => some (s.afterGet entryKey)
  | .set entryKey value ttlSeconds elapsed =>
    some (s.set maxEntries entryKey value ttlSeconds elapsed)
  | .delete entryKey => some { s with entries := s.entries.erase entryKey }
  | .bumpNamespaceVersion namespaceKey => some (s.bumpNamespaceVersion namespaceKey)
  | .sweep => some { s with entries := s.unexpired }

end MemoryCache

end PetaCore
