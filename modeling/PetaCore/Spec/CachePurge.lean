import PetaCore.Spec.Singleflight

/-!
# No result outlives a purge

A purge raises the version of a namespace, or deletes one entry. A result of before the purge
is out of reach for every later call because it is stored under versions below those that the
call has read. That takes a bump that succeeds, and versions that were captured before the
factory was called: a store that has to read them again may read those of after the purge.

## Key results

- `no_result_outlives_purge`: in every run without such steps, a call that begins after a purge
  has returned gets no result of a factory that was called before the purge was issued
- `results_outlive_purges`: runs with such a step in which one does
-/

namespace PetaCore

open Run CacheSystem

/-! ## What a purge covers -/

/-- Two requests with the same key, apart from the versions. -/
structure SameKey (r r' : CacheRequest) : Prop where
  operation : r.operation = r'.operation
  serverId : r.serverId = r'.serverId
  entityId : r.entityId = r'.entityId
  scopeType : r.policy.scope = r'.policy.scope
  scopeIdentity : r.scopeIdentity = r'.scopeIdentity
  canonical : r.canonical = r'.canonical

/-- The requests that a purge is about. -/
def PurgeTarget.Covers : PurgeTarget → CacheRequest → Prop
  | .global, _ => True
  | .server serverId, r => r.serverId = serverId
  | .tool serverId toolName, r =>
    r.operation = .tool ∧ r.serverId = serverId ∧ r.entityId = toolName
  | .prompt serverId promptName, r =>
    r.operation = .prompt ∧ r.serverId = serverId ∧ r.entityId = promptName
  | .resource serverId uri, r =>
    r.operation = .resource ∧ r.serverId = serverId ∧ r.entityId = uri
  | .exact request, r => request.scopeIdentity ≠ none ∧ SameKey request r

instance (r r' : CacheRequest) : Decidable (SameKey r r') :=
  decidable_of_iff (r.operation = r'.operation ∧ r.serverId = r'.serverId ∧
      r.entityId = r'.entityId ∧ r.policy.scope = r'.policy.scope ∧
      r.scopeIdentity = r'.scopeIdentity ∧ r.canonical = r'.canonical)
    ⟨fun ⟨h1, h2, h3, h4, h5, h6⟩ => ⟨h1, h2, h3, h4, h5, h6⟩,
      fun ⟨h1, h2, h3, h4, h5, h6⟩ => ⟨h1, h2, h3, h4, h5, h6⟩⟩

instance (target : PurgeTarget) (r : CacheRequest) : Decidable (target.Covers r) :=
  match target with
  | .global => .isTrue trivial
  | .server serverId => inferInstanceAs (Decidable (r.serverId = serverId))
  | .tool serverId toolName => inferInstanceAs
    (Decidable (r.operation = .tool ∧ r.serverId = serverId ∧ r.entityId = toolName))
  | .prompt serverId promptName => inferInstanceAs
    (Decidable (r.operation = .prompt ∧ r.serverId = serverId ∧ r.entityId = promptName))
  | .resource serverId uri => inferInstanceAs
    (Decidable (r.operation = .resource ∧ r.serverId = serverId ∧ r.entityId = uri))
  | .exact request => inferInstanceAs
    (Decidable (request.scopeIdentity ≠ none ∧ SameKey request r))

/-- Whether a purge is a `purgeExact`. -/
def PurgeTarget.IsExact (target : PurgeTarget) : Prop := ∃ r, target = .exact r

/-- The namespace that a purge bumps. -/
def PurgeTarget.slot : PurgeTarget → NamespaceSlot
  | .global => .global
  | .server _ => .server
  | .tool _ _ | .prompt _ _ | .resource _ _ | .exact _ => .entity

theorem PurgeTarget.Covers.congr {target : PurgeTarget} {r r' : CacheRequest}
    (h : target.Covers r) (hsame : SameKey r r') : target.Covers r' := by
  cases target with
  | global => exact trivial
  | server serverId => exact hsame.serverId.symm.trans h
  | tool _ _ | prompt _ _ | resource _ _ =>
    exact ⟨hsame.operation.symm.trans h.1, hsame.serverId.symm.trans h.2.1,
      hsame.entityId.symm.trans h.2.2⟩
  | exact request =>
    exact ⟨h.1, {
      operation := h.2.operation.trans hsame.operation
      serverId := h.2.serverId.trans hsame.serverId
      entityId := h.2.entityId.trans hsame.entityId
      scopeType := h.2.scopeType.trans hsame.scopeType
      scopeIdentity := h.2.scopeIdentity.trans hsame.scopeIdentity
      canonical := h.2.canonical.trans hsame.canonical }⟩

/-- The namespace that a purge bumps is one of every request that it covers. -/
theorem namespaceKey_of_covers {env : CacheEnv} {target : PurgeTarget} {r : CacheRequest}
    {key : String} (hkey : target.namespaceKey? env.sha256 env.config.keyPrefix = some key)
    (h : target.Covers r) : r.namespaceKey env.sha256 env.config target.slot = key := by
  cases target with
  | global => exact Option.some.inj hkey
  | server serverId =>
    cases hkey
    rw [← (h : r.serverId = serverId)]
    rfl
  | tool _ _ | prompt _ _ | resource _ _ =>
    obtain ⟨hop, rfl, rfl⟩ := h
    cases hkey
    simp only [CacheRequest.namespaceKey, getNamespaceKeys, PurgeTarget.slot, hop]
  | exact request => cases hkey

section

variable {env : CacheEnv} {r r' : CacheRequest}

theorem namespaceKey_of_sameKey (h : SameKey r r') (slot : NamespaceSlot) :
    r.namespaceKey env.sha256 env.config slot = r'.namespaceKey env.sha256 env.config slot := by
  simp only [CacheRequest.namespaceKey, h.operation, h.serverId, h.entityId]

theorem versionOf_of_sameKey (h : SameKey r r') (s : CacheState) (slot : NamespaceSlot) :
    s.versionOf env r slot = s.versionOf env r' slot := by
  simp only [CacheState.versionOf, namespaceKey_of_sameKey h slot]

theorem entryKey_of_sameKey (h : SameKey r r') (scopeIdentity : String)
    (v : CacheNamespaceVersions) :
    r.entryKey env.sha256 env.config scopeIdentity v =
      r'.entryKey env.sha256 env.config scopeIdentity v := by
  have hhash : r.requestHash env.sha256 = r'.requestHash env.sha256 :=
    congrArg env.sha256 h.canonical
  simp only [CacheRequest.entryKey, CacheRequest.keyParts, h.operation, h.serverId, h.entityId,
    h.scopeType, hhash]

/-- The texts of a request that are hashed are among the given ones. -/
structure CacheRequest.Over (texts : Set String) (r : CacheRequest) : Prop where
  entityId : r.entityId ∈ texts
  scopeIdentity : ∀ i, r.scopeIdentity = some i → i ∈ texts
  canonical : r.canonical ∈ texts

theorem hashed_keyParts {texts : Set String}
    (hdigest : ∀ x ∈ texts, isDigest (env.sha256 x) = true) (hr : r.Over texts) {i : String}
    (hi : r.scopeIdentity = some i) (v : CacheNamespaceVersions) :
    (r.keyParts env.sha256 i v).Hashed where
  entityHash := hdigest _ hr.entityId
  scopeHash := hdigest _ (hr.scopeIdentity i hi)
  requestHash := hdigest _ hr.canonical

/-- Entries are stored under the key of their request and versions, and of no others. -/
theorem sameKey_of_entryKey_eq {texts : Set String} (hinj : Set.InjOn env.sha256 texts)
    (hdigest : ∀ x ∈ texts, isDigest (env.sha256 x) = true) (hr : r.Over texts)
    (hr' : r'.Over texts) {i i' : String} (hi : r.scopeIdentity = some i)
    (hi' : r'.scopeIdentity = some i') {v v' : CacheNamespaceVersions}
    (h : r.entryKey env.sha256 env.config i v = r'.entryKey env.sha256 env.config i' v') :
    SameKey r r' ∧ v = v' := by
  have hparts := buildEntryKey_inj (hashed_keyParts hdigest hr hi v)
    (hashed_keyParts hdigest hr' hi' v') h
  simp only [CacheRequest.keyParts, CacheKeyParts.mk.injEq] at hparts
  obtain ⟨hoperation, hserver, hentity, hscopeType, hscope, hversions, hrequest⟩ := hparts
  have hidentity := hinj (hr.scopeIdentity i hi) (hr'.scopeIdentity i' hi') hscope
  refine ⟨?_, hversions⟩
  exact {
    operation := hoperation
    serverId := hserver
    entityId := hinj hr.entityId hr'.entityId hentity
    scopeType := hscopeType
    scopeIdentity := by rw [hi, hi', hidentity]
    canonical := hinj hr.canonical hr'.canonical hrequest }

end

theorem versionSuffix_inj {lv lv' : Option CacheNamespaceVersions}
    (h : versionSuffix lv = versionSuffix lv') : lv = lv' := by
  have hlist := congrArg String.toList h
  cases lv with
  | none =>
    cases lv' with
    | none => rfl
    | some v' =>
      rw [toList_versionSuffix_some] at hlist
      cases hlist
  | some v =>
    cases lv' with
    | none =>
      rw [toList_versionSuffix_some] at hlist
      cases hlist
    | some v' =>
      rw [toList_versionSuffix_some, toList_versionSuffix_some] at hlist
      have hdigits : ∀ n : Nat, ':' ∉ (toString n).toList := Nat.notMem_toString (by decide)
      obtain ⟨hglobal, hrest⟩ :=
        Segments.append_sep_inj (hdigits _) (hdigits _) (List.cons.inj hlist).2
      obtain ⟨hserver, hentity⟩ := Segments.append_sep_inj (hdigits _) (hdigits _) hrest
      obtain ⟨g, sv, e⟩ := v
      obtain ⟨g', sv', e'⟩ := v'
      obtain rfl := Nat.toString_inj (String.toList_inj.mp hglobal)
      obtain rfl := Nat.toString_inj (String.toList_inj.mp hserver)
      obtain rfl := Nat.toString_inj (String.toList_inj.mp hentity)
      rfl

/-- Calls of the same request that share a flight have read the same versions. -/
theorem versions_of_singleflightKey_eq {sha256 : String → String} {r r' : CacheRequest}
    (hsame : SameKey r r') {i : String} {lv lv' : Option CacheNamespaceVersions}
    (h : singleflightKey sha256 r i lv = singleflightKey sha256 r' i lv') : lv = lv' := by
  have hhash : r.requestHash sha256 = r'.requestHash sha256 := congrArg sha256 hsame.canonical
  simp only [singleflightKey, hsame.operation, hsame.serverId, hsame.entityId, hhash] at h
  exact versionSuffix_inj ((String.append_right_inj _).mp h)

/-! ## The invariant -/

/-- The versions that a purge which has done its work leaves behind: later calls read at least
    these, and no earlier result that it covers is stored under all of them. -/
def PurgeRecord.floor? (p : PurgeRecord) : Option (NamespaceSlot → Nat) :=
  match p.target with
  | .exact _ => if p.deleted then some fun slot => (p.reads.get slot).getD 0 else none
  | _ => p.bumpedTo.map fun n slot => if slot = p.target.slot then n else 0

/-- A call whose factory has been called and whose result may still be shared or stored. -/
def CacheCall.Active (call : CacheCall) : Prop :=
  call.phase = .leading ∨ ∃ reads, call.pendingReads = some reads

/-- A purge does not reach a call in flight by its versions: it bumps none, or the call has
    captured none. -/
def Exposed (target : PurgeTarget) (call : CacheCall) : Prop :=
  target.Covers call.request ∧ (target.IsExact ∨ call.lookupVersions = none)

/-- What holds of every call. -/
structure CacheCallOk (env : CacheEnv) (texts : Set String) (s : CacheState) (call : CacheCall) :
    Prop where
  overTexts : call.request.Over texts
  begun : call.begunAt < s.clock
  started : ∀ f, call.factoryAt = some f → f < s.clock
  notStarted : call.phase = .looking ∨ call.phase = .looked →
    call.factoryAt = none ∧ call.pendingReads = none
  activeFactory : call.Active → ∃ f, call.factoryAt = some f
  activeIssued : ∀ f, call.Active → call.factoryAt = some f → ∀ p ∈ s.purges,
    Exposed p.target call → p.issuedAt ≤ f
  readsLe : ∀ slot n, call.reads.get slot = some n → n ≤ s.versionOf env call.request slot
  readsFloor : ∀ p ∈ s.purges, ∀ t floor, p.returnedAt = some t → t < call.begunAt →
    p.target.Covers call.request → p.floor? = some floor →
    ∀ slot n, call.reads.get slot = some n → floor slot ≤ n
  bumped : ∀ p ∈ s.purges, ∀ n v f, p.bumpedTo = some n → p.target.Covers call.request →
    call.lookupVersions = some v → call.factoryAt = some f → f < p.issuedAt →
    v.get p.target.slot < n
  pendingLe : ∀ reads, call.pendingReads = some reads → ∀ slot n, reads.get slot = some n →
    n ≤ s.versionOf env call.request slot
  pendingCaptured : ∀ reads, call.pendingReads = some reads → ∀ v,
    call.lookupVersions = some v → reads.versions? = some v

/-- What holds of every purge. -/
structure PurgeOk (env : CacheEnv) (s : CacheState) (p : PurgeRecord) : Prop where
  issued : p.issuedAt < s.clock
  returned : ∀ t, p.returnedAt = some t → t < s.clock
  readsLe : ∀ r, p.target = .exact r → ∀ slot n, p.reads.get slot = some n →
    n ≤ s.versionOf env r slot
  floorLe : ∀ floor, p.floor? = some floor → ∀ r, p.target.Covers r → ∀ slot,
    floor slot ≤ s.versionOf env r slot
  returnedFloor : ∀ t r, p.returnedAt = some t → p.target.Covers r →
    ∃ floor, p.floor? = some floor

/-- An entry is under the key of the call that produced it, with versions below the floor of
    every purge that was issued after the call's factory was called. -/
structure EntryOk (env : CacheEnv) (s : CacheState) (key : String) (entry : CacheEntry)
    (call : CacheCall) (f : Nat) (scopeIdentity : String) (v : CacheNamespaceVersions) :
    Prop where
  producer : s.calls[entry.producer]? = some call
  factory : call.factoryAt = some f
  identity : call.request.scopeIdentity = some scopeIdentity
  key : key = call.request.entryKey env.sha256 env.config scopeIdentity v
  le : ∀ slot, v.get slot ≤ s.versionOf env call.request slot
  below : ∀ p ∈ s.purges, p.target.Covers call.request → f < p.issuedAt →
    ∀ floor, p.floor? = some floor → ∃ slot, v.get slot < floor slot
  readsGe : ∀ p ∈ s.purges, p.target.Covers call.request → f < p.issuedAt → p.target.IsExact →
    ∀ slot n, p.reads.get slot = some n → v.get slot ≤ n

/-- The result of a call is not from before a purge that had returned when the call began. -/
def ResultSourceOk (s : CacheState) (call : CacheCall) : Prop :=
  ∀ p ∈ s.purges, ∀ t, p.returnedAt = some t → t < call.begunAt → p.target.Covers call.request →
    ∀ d, call.source = some (.cached d) ∨ call.source = some (.coalesced d) →
      ∃ producer f, s.calls[d]? = some producer ∧ producer.factoryAt = some f ∧ p.issuedAt ≤ f

structure PurgeInv (env : CacheEnv) (texts : Set String) (s : CacheState) : Prop where
  calls : ∀ call ∈ s.calls, CacheCallOk env texts s call
  purges : ∀ p ∈ s.purges, PurgeOk env s p
  entries : ∀ key entry, s.entries.get? key = some entry →
    ∃ call f scopeIdentity v, EntryOk env s key entry call f scopeIdentity v
  sources : ∀ call ∈ s.calls, ResultSourceOk s call

theorem PurgeInv.init (env : CacheEnv) (texts : Set String) : PurgeInv env texts .init where
  calls := by
    intro call h
    cases h
  purges := by
    intro p h
    cases h
  entries := by
    intro key entry h
    cases h
  sources := by
    intro call h
    cases h

/-! ## Steps that change a call -/

section

variable {call : CacheCall} {p : PurgeRecord} {v : CacheNamespaceVersions} {scopeIdentity : String}
  {r : CacheRequest} {c : Nat}

variable {env : CacheEnv} {texts : Set String} {s s' : CacheState}

/-- What is said about a call depends on the clock, the versions and the purges only. -/
theorem CacheCallOk.mono (h : CacheCallOk env texts s call) (hclock : s.clock ≤ s'.clock)
    (hversions : ∀ r slot, s.versionOf env r slot ≤ s'.versionOf env r slot)
    (hpurges : s'.purges = s.purges) : CacheCallOk env texts s' call where
  overTexts := h.overTexts
  begun := Nat.lt_of_lt_of_le h.begun hclock
  started := fun f hf => Nat.lt_of_lt_of_le (h.started f hf) hclock
  notStarted := h.notStarted
  activeFactory := h.activeFactory
  activeIssued := by
    rw [hpurges]
    exact h.activeIssued
  readsLe := fun slot n hn => Nat.le_trans (h.readsLe slot n hn) (hversions _ slot)
  readsFloor := by
    rw [hpurges]
    exact h.readsFloor
  bumped := by
    rw [hpurges]
    exact h.bumped
  pendingLe := fun reads hreads slot n hn =>
    Nat.le_trans (h.pendingLe reads hreads slot n hn) (hversions _ slot)
  pendingCaptured := h.pendingCaptured

theorem PurgeOk.mono (h : PurgeOk env s p) (hclock : s.clock ≤ s'.clock)
    (hversions : ∀ r slot, s.versionOf env r slot ≤ s'.versionOf env r slot) :
    PurgeOk env s' p where
  issued := Nat.lt_of_lt_of_le h.issued hclock
  returned := fun t ht => Nat.lt_of_lt_of_le (h.returned t ht) hclock
  readsLe := fun r hr slot n hn => Nat.le_trans (h.readsLe r hr slot n hn) (hversions r slot)
  floorLe := fun floor hfloor r hr slot =>
    Nat.le_trans (h.floorLe floor hfloor r hr slot) (hversions r slot)
  returnedFloor := h.returnedFloor

/-- A call is found where it was, with the same request and the same factory call. -/
def CallsKept (s s' : CacheState) : Prop :=
  ∀ (d : Nat) (call : CacheCall) (f : Nat), s.calls[d]? = some call → call.factoryAt = some f →
    ∃ call', s'.calls[d]? = some call' ∧ call'.factoryAt = some f ∧ call'.request = call.request

theorem EntryOk.mono {key : String} {entry : CacheEntry} {f : Nat}
    (h : EntryOk env s key entry call f scopeIdentity v) (hcalls : CallsKept s s')
    (hversions : ∀ r slot, s.versionOf env r slot ≤ s'.versionOf env r slot)
    (hpurges : s'.purges = s.purges) :
    ∃ call' f scopeIdentity v, EntryOk env s' key entry call' f scopeIdentity v := by
  obtain ⟨call', hcall', hfactory, hrequest⟩ := hcalls _ call f h.producer h.factory
  refine ⟨call', f, scopeIdentity, v, ?_⟩
  exact {
    producer := hcall'
    factory := hfactory
    identity := by rw [hrequest]; exact h.identity
    key := by rw [hrequest]; exact h.key
    le := by
      intro slot
      rw [hrequest]
      exact Nat.le_trans (h.le slot) (hversions _ slot)
    below := by
      rw [hrequest, hpurges]
      exact h.below
    readsGe := by
      rw [hrequest, hpurges]
      exact h.readsGe }

theorem ResultSourceOk.mono (h : ResultSourceOk s call) (hcalls : CallsKept s s')
    (hpurges : s'.purges = s.purges) : ResultSourceOk s' call := by
  intro p hp t ht hbegun hcovers d hd
  rw [hpurges] at hp
  obtain ⟨producer, f, hproducer, hfactory, hle⟩ := h p hp t ht hbegun hcovers d hd
  obtain ⟨producer', hproducer', hfactory', _⟩ := hcalls d producer f hproducer hfactory
  exact ⟨producer', f, hproducer', hfactory', hle⟩

/-- A step that leaves versions and purges alone. -/
structure SameWorld (s s' : CacheState) : Prop where
  clock : s'.clock = s.clock + 1
  versions : s'.versions = s.versions
  purges : s'.purges = s.purges

theorem SameWorld.versionOf (h : SameWorld s s') (r : CacheRequest) (slot : NamespaceSlot) :
    s.versionOf env r slot ≤ s'.versionOf env r slot := by
  simp only [CacheState.versionOf, CacheState.getNamespaceVersion, h.versions, Nat.le_refl]

theorem SameWorld.clock_le (h : SameWorld s s') : s.clock ≤ s'.clock := by
  rw [h.clock]
  exact Nat.le_succ _

variable {call' : CacheCall}

theorem callsKept_set {call : CacheCall} (hcall : s.calls[c]? = some call)
    (hcalls : s'.calls = s.calls.set c call') (hrequest : call'.request = call.request)
    (hfactory : ∀ f, call.factoryAt = some f → call'.factoryAt = some f) : CallsKept s s' := by
  intro d other f hd hf
  by_cases hdc : d = c
  · subst hdc
    obtain rfl := Option.some.inj (hcall.symm.trans hd)
    refine ⟨call', ?_, hfactory f hf, hrequest⟩
    rw [hcalls, getElem?_set_iff hcall]
    exact .inl ⟨rfl, rfl⟩
  · refine ⟨other, ?_, hf, rfl⟩
    rw [hcalls, getElem?_set_iff hcall]
    exact .inr ⟨hdc, hd⟩

/-- The calls there were stay in order, when a step writes nothing but calls and entries: what is
    new has to be. -/
theorem PurgeInv.of_calls (h : PurgeInv env texts s) (hworld : SameWorld s s')
    (hkept : CallsKept s s')
    (hcalls : ∀ call ∈ s'.calls, call ∈ s.calls ∨
      CacheCallOk env texts s' call ∧ ResultSourceOk s' call)
    (hentries : ∀ key entry, s'.entries.get? key = some entry →
      s.entries.get? key = some entry ∨
        ∃ call f scopeIdentity v, EntryOk env s' key entry call f scopeIdentity v) :
    PurgeInv env texts s' := by
  refine ⟨?_, ?_, ?_, ?_⟩
  · intro call hcall
    cases hcalls call hcall with
    | inl hold => exact (h.calls call hold).mono hworld.clock_le hworld.versionOf hworld.purges
    | inr hnew => exact hnew.1
  · intro p hp
    rw [hworld.purges] at hp
    exact (h.purges p hp).mono hworld.clock_le hworld.versionOf
  · intro key entry hentry
    cases hentries key entry hentry with
    | inl hold =>
      obtain ⟨producer, f, scopeIdentity, v, hentryOk⟩ := h.entries key entry hold
      exact hentryOk.mono hkept hworld.versionOf hworld.purges
    | inr hnew => exact hnew
  · intro call hcall
    cases hcalls call hcall with
    | inl hold => exact (h.sources call hold).mono hkept hworld.purges
    | inr hnew => exact hnew.2

/-- A step that changes a call keeps the invariant when the call is in order afterwards, and
    so is what the step has stored. -/
theorem PurgeInv.setCall (h : PurgeInv env texts s) {call : CacheCall}
    (hcall : s.calls[c]? = some call) (hworld : SameWorld s s')
    (hcalls : s'.calls = s.calls.set c call') (hrequest : call'.request = call.request)
    (hfactory : ∀ f, call.factoryAt = some f → call'.factoryAt = some f)
    (hok : CacheCallOk env texts s' call') (hsource : ResultSourceOk s' call')
    (hentries : ∀ key entry, s'.entries.get? key = some entry →
      s.entries.get? key = some entry ∨
        ∃ call f scopeIdentity v, EntryOk env s' key entry call f scopeIdentity v) :
    PurgeInv env texts s' := by
  refine h.of_calls hworld (callsKept_set hcall hcalls hrequest hfactory) ?_ hentries
  intro other hother
  rw [hcalls] at hother
  cases List.mem_or_eq_of_mem_set hother with
  | inl hold => exact .inl hold
  | inr hnew => exact .inr (hnew ▸ ⟨hok, hsource⟩)

/-- A call that goes on without reading versions or calling its factory. -/
theorem CacheCallOk.keep {call : CacheCall} (h : CacheCallOk env texts s call)
    (hrequest : call'.request = call.request) (hbegun : call'.begunAt = call.begunAt)
    (hreads : call'.reads = call.reads) (hfactory : call'.factoryAt = call.factoryAt)
    (hactive : call'.Active → call.Active)
    (hnotStarted : call'.phase = .looking ∨ call'.phase = .looked →
      call'.factoryAt = none ∧ call'.pendingReads = none)
    (hpending : ∀ reads, call'.pendingReads = some reads →
      (∀ slot n, reads.get slot = some n → n ≤ s.versionOf env call.request slot) ∧
        ∀ v, call.lookupVersions = some v → reads.versions? = some v) :
    CacheCallOk env texts s call' := by
  have hlookup : call'.lookupVersions = call.lookupVersions := by
    rw [CacheCall.lookupVersions, hreads]
    rfl
  exact {
    overTexts := by rw [hrequest]; exact h.overTexts
    begun := by rw [hbegun]; exact h.begun
    started := by rw [hfactory]; exact h.started
    notStarted := hnotStarted
    activeFactory := by
      intro ha
      rw [hfactory]
      exact h.activeFactory (hactive ha)
    activeIssued := by
      intro f ha hf p hp hexposed
      rw [hfactory] at hf
      rw [Exposed, hrequest, hlookup] at hexposed
      exact h.activeIssued f (hactive ha) hf p hp hexposed
    readsLe := by rw [hreads, hrequest]; exact h.readsLe
    readsFloor := by rw [hreads, hrequest, hbegun]; exact h.readsFloor
    bumped := by rw [hrequest, hlookup, hfactory]; exact h.bumped
    pendingLe := by
      intro reads hr
      rw [hrequest]
      exact (hpending reads hr).1
    pendingCaptured := by
      intro reads hr
      rw [hlookup]
      exact (hpending reads hr).2 }

/-- A call that goes on with nothing to store. -/
theorem CacheCallOk.keep_quiet {call : CacheCall} (h : CacheCallOk env texts s call)
    (hrequest : call'.request = call.request) (hbegun : call'.begunAt = call.begunAt)
    (hreads : call'.reads = call.reads) (hfactory : call'.factoryAt = call.factoryAt)
    (hphase : call'.phase ≠ .leading) (hnone : call'.pendingReads = none)
    (hnotStarted : call'.phase = .looking ∨ call'.phase = .looked → call.factoryAt = none) :
    CacheCallOk env texts s call' := by
  refine h.keep hrequest hbegun hreads hfactory ?_ ?_ ?_
  · intro hactive
    cases hactive with
    | inl hleading => exact absurd hleading hphase
    | inr hpending =>
      obtain ⟨reads, hreads⟩ := hpending
      rw [hnone] at hreads
      cases hreads
  · intro hearly
    rw [hfactory]
    exact ⟨hnotStarted hearly, hnone⟩
  · intro reads hpending
    rw [hnone] at hpending
    cases hpending

/-- A call in `lookup` with other reads. -/
theorem CacheCallOk.withReads (h : CacheCallOk env texts s call) (hphase : call.phase = .looking)
    (phase : CallPhase) (hearly : phase = .looking ∨ phase = .looked) (reads : VersionReads)
    (hle : ∀ slot n, reads.get slot = some n → n ≤ s.versionOf env call.request slot)
    (hfloor : ∀ p ∈ s.purges, ∀ t floor, p.returnedAt = some t → t < call.begunAt →
      p.target.Covers call.request → p.floor? = some floor →
      ∀ slot n, reads.get slot = some n → floor slot ≤ n) :
    CacheCallOk env texts s { call with phase := phase, reads := reads } := by
  obtain ⟨hnone, hquiet⟩ := h.notStarted (.inl hphase)
  have hpending : CacheCall.pendingReads { call with phase := phase, reads := reads } = none :=
    hquiet
  have hinactive : ¬ CacheCall.Active { call with phase := phase, reads := reads } := by
    intro hactive
    cases hactive with
    | inl hleading =>
      cases hearly with
      | inl hp | inr hp => cases hp.symm.trans hleading
    | inr hreads =>
      obtain ⟨r, hr⟩ := hreads
      rw [hpending] at hr
      cases hr
  exact {
    overTexts := h.overTexts
    begun := h.begun
    started := h.started
    notStarted := fun _ => ⟨hnone, hquiet⟩
    activeFactory := fun ha => absurd ha hinactive
    activeIssued := fun _ ha => absurd ha hinactive
    readsLe := hle
    readsFloor := hfloor
    bumped := by
      intro p hp n v f _ _ _ hf
      cases hnone.symm.trans hf
    pendingLe := by
      intro r hr
      rw [hpending] at hr
      cases hr
    pendingCaptured := by
      intro r hr
      rw [hpending] at hr
      cases hr }

/-- A call whose factory is called now. -/
theorem CacheCallOk.startFactory {call : CacheCall} (h : CacheCallOk env texts s call)
    (hpurges : ∀ p ∈ s.purges, PurgeOk env s p) (hphase : call.phase = .looked)
    (hworld : SameWorld s s') (hrequest : call'.request = call.request)
    (hbegun : call'.begunAt = call.begunAt) (hreads : call'.reads = call.reads)
    (hfactory : call'.factoryAt = some s.clock)
    (hbackground : call'.background = call.background)
    (hearly : call'.phase ≠ .looking ∧ call'.phase ≠ .looked) : CacheCallOk env texts s' call' := by
  have hpending : call'.pendingReads = none := by
    rw [CacheCall.pendingReads, hbackground]
    exact (h.notStarted (.inr hphase)).2
  exact {
    overTexts := by rw [hrequest]; exact h.overTexts
    begun := by
      rw [hbegun]
      exact Nat.lt_of_lt_of_le h.begun hworld.clock_le
    started := by
      intro f hf
      obtain rfl := Option.some.inj (hfactory.symm.trans hf)
      rw [hworld.clock]
      exact Nat.lt_succ_self _
    notStarted := by
      intro hcase
      cases hcase with
      | inl hcase => exact absurd hcase hearly.1
      | inr hcase => exact absurd hcase hearly.2
    activeFactory := fun _ => ⟨s.clock, hfactory⟩
    activeIssued := by
      intro f _ hf p hp _
      obtain rfl := Option.some.inj (hfactory.symm.trans hf)
      rw [hworld.purges] at hp
      exact Nat.le_of_lt (hpurges p hp).issued
    readsLe := by
      intro slot n hn
      rw [hreads] at hn
      rw [hrequest]
      exact Nat.le_trans (h.readsLe slot n hn) (hworld.versionOf _ slot)
    readsFloor := by
      rw [hreads, hrequest, hbegun, hworld.purges]
      exact h.readsFloor
    bumped := by
      -- no purge has been issued after this moment
      intro p hp n v f _ _ _ hf hlt
      obtain rfl := Option.some.inj (hfactory.symm.trans hf)
      rw [hworld.purges] at hp
      have hissued := (hpurges p hp).issued
      omega
    pendingLe := by
      intro reads hr
      rw [hpending] at hr
      cases hr
    pendingCaptured := by
      intro reads hr
      rw [hpending] at hr
      cases hr }

theorem ResultSourceOk.congr {call : CacheCall} (h : ResultSourceOk s call)
    (hrequest : call'.request = call.request) (hbegun : call'.begunAt = call.begunAt)
    (hsource : call'.source = call.source) : ResultSourceOk s call' := by
  intro p hp t ht hlt hcovers d hd
  rw [hbegun] at hlt
  rw [hrequest] at hcovers
  rw [hsource] at hd
  exact h p hp t ht hlt hcovers d hd

theorem resultSourceOk_own (hsource : call.source = some .own) : ResultSourceOk s call := by
  intro p hp t ht hlt hcovers d hd
  rw [hsource] at hd
  cases hd with
  | inl hd | inr hd => cases hd

/-! ## What a call gets -/

/-- An entry that a call finds is not from before a purge that it begins after: it would be
    stored under versions below those that the call has read. -/
theorem cached_not_stale (h : PurgeInv env texts s) (hinj : Set.InjOn env.sha256 texts)
    (hdigest : ∀ x ∈ texts, isDigest (env.sha256 x) = true) (hmem : call ∈ s.calls)
    {entry : CacheEntry} (hreads : call.reads.versions? = some v)
    (hidentity : call.request.scopeIdentity = some scopeIdentity) (hentry : s.entries.get?
      (call.request.entryKey env.sha256 env.config scopeIdentity v) = some entry)
    (hp : p ∈ s.purges) {t : Nat} (ht : p.returnedAt = some t) (hlt : t < call.begunAt)
    (hcovers : p.target.Covers call.request) :
    ∃ producer f, s.calls[entry.producer]? = some producer ∧ producer.factoryAt = some f ∧
      p.issuedAt ≤ f := by
  obtain ⟨producer, f, scopeIdentity', v', hok⟩ := h.entries _ entry hentry
  have hcall := h.calls call hmem
  have hproducer := h.calls producer (List.mem_of_getElem? hok.producer)
  obtain ⟨hsame, rfl⟩ := sameKey_of_entryKey_eq hinj hdigest hcall.overTexts
    hproducer.overTexts hidentity hok.identity hok.key
  refine ⟨producer, f, hok.producer, hok.factory, ?_⟩
  obtain ⟨floor, hfloor⟩ := (h.purges p hp).returnedFloor t call.request ht hcovers
  apply Nat.le_of_not_lt
  intro hstale
  obtain ⟨slot, hbelow⟩ := hok.below p hp (hcovers.congr hsame) hstale floor hfloor
  have hread := VersionReads.get_of_versions? hreads slot
  have habove := hcall.readsFloor p hp t floor ht hlt hcovers hfloor slot _ hread
  omega

variable {floor : NamespaceSlot → Nat}

/-- A purge that is not exact leaves the version that it has bumped to. -/
theorem floor_of_bump (hexact : ¬ p.target.IsExact)
    (h : p.floor? = some floor) : p.bumpedTo = some (floor p.target.slot) := by
  unfold PurgeRecord.floor? at h
  split at h
  · rename_i r htarget
    exact absurd ⟨r, htarget⟩ hexact
  · obtain ⟨n, hn, rfl⟩ := Option.map_eq_some_iff.mp h
    rw [hn]
    simp

/-- The flight that a call joins was not started before a purge that the call begins after. -/
theorem coalesced_not_stale (h : PurgeInv env texts s) {call leader : CacheCall}
    (hmem : call ∈ s.calls) (hleader : leader ∈ s.calls) (hphase : leader.phase = .leading)
    (hsame : SameKey call.request leader.request)
    (hversions : call.lookupVersions = leader.lookupVersions) (hp : p ∈ s.purges) {t : Nat}
    (ht : p.returnedAt = some t) (hlt : t < call.begunAt) (hcovers : p.target.Covers call.request) :
    ∃ f, leader.factoryAt = some f ∧ p.issuedAt ≤ f := by
  have hactive : leader.Active := .inl hphase
  obtain ⟨f, hf⟩ := (h.calls leader hleader).activeFactory hactive
  have hcovers' := hcovers.congr hsame
  refine ⟨f, hf, ?_⟩
  by_cases hexposed : Exposed p.target leader
  · exact (h.calls leader hleader).activeIssued f hactive hf p hp hexposed
  · -- the purge has bumped past the versions of the flight, and the call has read later ones
    have hexact : ¬ p.target.IsExact := fun he => hexposed ⟨hcovers', .inl he⟩
    cases hlookup : leader.lookupVersions with
    | none => exact absurd ⟨hcovers', .inr hlookup⟩ hexposed
    | some v =>
      obtain ⟨floor, hfloor⟩ := (h.purges p hp).returnedFloor t call.request ht hcovers
      apply Nat.le_of_not_lt
      intro hstale
      have hbelow := (h.calls leader hleader).bumped p hp _ v f (floor_of_bump hexact hfloor)
        hcovers' hlookup hf hstale
      have hread := VersionReads.get_of_versions? (hversions.trans hlookup) p.target.slot
      have habove := (h.calls call hmem).readsFloor p hp t floor ht hlt hcovers hfloor _ _ hread
      omega

/-- What a background store writes is in order: it has captured its versions before the
    factory was called, or no purge has been issued since. -/
theorem stored_entryOk (h : PurgeInv env texts s) (hcall : s.calls[c]? = some call)
    {reads : VersionReads} (hidentity : call.request.scopeIdentity = some scopeIdentity)
    (hpending : call.pendingReads = some reads) (hreads : reads.versions? = some v) (result : Json)
    :
    ∃ f, EntryOk env s (call.request.entryKey env.sha256 env.config scopeIdentity v) ⟨result, c⟩
      call f scopeIdentity v := by
  have hok := h.calls call (List.mem_of_getElem? hcall)
  have hactive : call.Active := .inr ⟨reads, hpending⟩
  obtain ⟨f, hf⟩ := hok.activeFactory hactive
  have hnotExposed : ∀ p ∈ s.purges, f < p.issuedAt → ¬ Exposed p.target call := by
    intro p hp hlt hexposed
    have := hok.activeIssued f hactive hf p hp hexposed
    omega
  refine ⟨f, ?_⟩
  exact {
    producer := hcall
    factory := hf
    identity := hidentity
    key := rfl
    le := by
      intro slot
      exact hok.pendingLe reads hpending slot _ (VersionReads.get_of_versions? hreads slot)
    below := by
      intro p hp hcovers hlt floor hfloor
      have hexposed := hnotExposed p hp hlt
      have hexact : ¬ p.target.IsExact := fun he => hexposed ⟨hcovers, .inl he⟩
      cases hlookup : call.lookupVersions with
      | none => exact absurd ⟨hcovers, .inr hlookup⟩ hexposed
      | some w =>
        obtain rfl := Option.some.inj
          (hreads.symm.trans (hok.pendingCaptured reads hpending w hlookup))
        exact ⟨p.target.slot,
          hok.bumped p hp _ v f (floor_of_bump hexact hfloor) hcovers hlookup hf hlt⟩
    readsGe := by
      intro p hp hcovers hlt hexact
      exact absurd ⟨hcovers, .inl hexact⟩ (hnotExposed p hp hlt) }

/-! ## Steps that change a purge -/

variable {i : Nat}

/-- A step that changes a purge keeps the invariant when the purge is in order afterwards and
    has not returned before, and the entries that are left are below what it promises. -/
theorem PurgeInv.setPurge (h : PurgeInv env texts s) {p p' : PurgeRecord}
    (hp : s.purges[i]? = some p) (hclock : s'.clock = s.clock + 1) (hcalls : s'.calls = s.calls)
    (hpurges : s'.purges = s.purges.set i p')
    (hversions : ∀ r slot, s.versionOf env r slot ≤ s'.versionOf env r slot)
    (htarget : p'.target = p.target) (hissued : p'.issuedAt = p.issuedAt)
    (hok : PurgeOk env s' p')
    (hreturned : ∀ t, p'.returnedAt = some t → t = s.clock ∨
      (p.returnedAt = some t ∧ p'.floor? = p.floor?))
    (hbumped : ∀ n, p'.bumpedTo = some n → p.bumpedTo = some n ∨
      ∀ call ∈ s.calls, p.target.Covers call.request → ∀ v, call.lookupVersions = some v →
        v.get p.target.slot < n)
    (hentries : ∀ key entry, s'.entries.get? key = some entry →
      s.entries.get? key = some entry ∧ ∀ call f scopeIdentity v,
        EntryOk env s key entry call f scopeIdentity v → p.target.Covers call.request →
        f < p.issuedAt →
        (∀ floor, p'.floor? = some floor → ∃ slot, v.get slot < floor slot) ∧
        (p.target.IsExact → ∀ slot n, p'.reads.get slot = some n → v.get slot ≤ n)) :
    PurgeInv env texts s' := by
  have hmem : p ∈ s.purges := List.mem_of_getElem? hp
  have hclock_le : s.clock ≤ s'.clock := by omega
  have hcases : ∀ q ∈ s'.purges, q ∈ s.purges ∨ q = p' := by
    intro q hq
    rw [hpurges] at hq
    exact List.mem_or_eq_of_mem_set hq
  refine ⟨?_, ?_, ?_, ?_⟩
  · intro call hcall
    rw [hcalls] at hcall
    have hcallOk := h.calls call hcall
    exact {
      overTexts := hcallOk.overTexts
      begun := Nat.lt_of_lt_of_le hcallOk.begun hclock_le
      started := fun f hf => Nat.lt_of_lt_of_le (hcallOk.started f hf) hclock_le
      notStarted := hcallOk.notStarted
      activeFactory := hcallOk.activeFactory
      activeIssued := by
        intro f hactive hf q hq hexposed
        cases hcases q hq with
        | inl hq => exact hcallOk.activeIssued f hactive hf q hq hexposed
        | inr hq =>
          subst hq
          rw [htarget] at hexposed
          rw [hissued]
          exact hcallOk.activeIssued f hactive hf p hmem hexposed
      readsLe := fun slot n hn => Nat.le_trans (hcallOk.readsLe slot n hn) (hversions _ slot)
      readsFloor := by
        intro q hq t floor ht hlt hcovers hfloor slot n hn
        cases hcases q hq with
        | inl hq => exact hcallOk.readsFloor q hq t floor ht hlt hcovers hfloor slot n hn
        | inr hq =>
          subst hq
          cases hreturned t ht with
          | inl hnow =>
            -- the call would have begun after the present moment
            have hbegun := hcallOk.begun
            omega
          | inr hold =>
            rw [htarget] at hcovers
            rw [hold.2] at hfloor
            exact hcallOk.readsFloor p hmem t floor hold.1 hlt hcovers hfloor slot n hn
      bumped := by
        intro q hq n v f hn hcovers hv hf hlt
        cases hcases q hq with
        | inl hq => exact hcallOk.bumped q hq n v f hn hcovers hv hf hlt
        | inr hq =>
          subst hq
          rw [htarget] at hcovers ⊢
          rw [hissued] at hlt
          cases hbumped n hn with
          | inl hold => exact hcallOk.bumped p hmem n v f hold hcovers hv hf hlt
          | inr hnew => exact hnew call hcall hcovers v hv
      pendingLe := fun reads hreads slot n hn =>
        Nat.le_trans (hcallOk.pendingLe reads hreads slot n hn) (hversions _ slot)
      pendingCaptured := hcallOk.pendingCaptured }
  · intro q hq
    cases hcases q hq with
    | inl hq => exact (h.purges q hq).mono hclock_le hversions
    | inr hq =>
      subst hq
      exact hok
  · intro key entry hentry
    obtain ⟨hold, hnew⟩ := hentries key entry hentry
    obtain ⟨call, f, scopeIdentity, v, hentryOk⟩ := h.entries key entry hold
    refine ⟨call, f, scopeIdentity, v, ?_⟩
    exact {
      producer := by rw [hcalls]; exact hentryOk.producer
      factory := hentryOk.factory
      identity := hentryOk.identity
      key := hentryOk.key
      le := fun slot => Nat.le_trans (hentryOk.le slot) (hversions _ slot)
      below := by
        intro q hq hcovers hlt floor hfloor
        cases hcases q hq with
        | inl hq => exact hentryOk.below q hq hcovers hlt floor hfloor
        | inr hq =>
          subst hq
          rw [htarget] at hcovers
          rw [hissued] at hlt
          exact (hnew call f scopeIdentity v hentryOk hcovers hlt).1 floor hfloor
      readsGe := by
        intro q hq hcovers hlt hexact
        cases hcases q hq with
        | inl hq => exact hentryOk.readsGe q hq hcovers hlt hexact
        | inr hq =>
          subst hq
          rw [htarget] at hcovers hexact
          rw [hissued] at hlt
          exact (hnew call f scopeIdentity v hentryOk hcovers hlt).2 hexact }
  · intro call hcall q hq t ht hlt hcovers d hd
    rw [hcalls] at hcall ⊢
    cases hcases q hq with
    | inl hq => exact h.sources call hcall q hq t ht hlt hcovers d hd
    | inr hq =>
      subst hq
      rw [htarget] at hcovers
      rw [hissued]
      cases hreturned t ht with
      | inl hnow =>
        have hbegun := (h.calls call hcall).begun
        omega
      | inr hold => exact h.sources call hcall p hmem t hold.1 hlt hcovers d hd

theorem versionOf_eq_of_versions (hversions : s'.versions = s.versions) (r : CacheRequest)
    (slot : NamespaceSlot) : s'.versionOf env r slot = s.versionOf env r slot := by
  simp only [CacheState.versionOf, CacheState.getNamespaceVersion, hversions]

theorem returnedAt_of_isOpen (h : p.isOpen = true) : p.returnedAt = none := by
  simp only [PurgeRecord.isOpen, Bool.and_eq_true, Option.isNone_iff_eq_none] at h
  exact h.1

/-- What `purgeExact` has read bounds the floor that it leaves. -/
theorem floorLe_exact (htarget : p.target = .exact r)
    (hreads : ∀ slot n, p.reads.get slot = some n → n ≤ s.versionOf env r slot)
    (hfloor : p.floor? = some floor) {r' : CacheRequest}
    (hcovers : p.target.Covers r') (slot : NamespaceSlot) :
    floor slot ≤ s.versionOf env r' slot := by
  rw [htarget] at hcovers
  rw [← versionOf_of_sameKey hcovers.2]
  simp only [PurgeRecord.floor?, htarget] at hfloor
  split at hfloor
  · cases hfloor
    show (p.reads.get slot).getD 0 ≤ _
    cases hget : p.reads.get slot with
    | none => exact Nat.zero_le _
    | some n => exact hreads slot n hget
  · cases hfloor

/-- A bump raises the version above those of all results that the purge covers. -/
theorem PurgeInv.bumped (h : PurgeInv env texts s) {namespaceKey : String}
    (hp : s.purges[i]? = some p)
    (hkey : p.target.namespaceKey? env.sha256 env.config.keyPrefix = some namespaceKey) :
    PurgeInv env texts { (s.setPurge i { p with
        bumpedTo := some (s.getNamespaceVersion namespaceKey + 1)
        returnedAt := some s.clock }) with
      versions := s.versions.set namespaceKey (s.getNamespaceVersion namespaceKey + 1) } := by
  have hnotExact : ¬ p.target.IsExact := by
    intro hexact
    obtain ⟨r, hr⟩ := hexact
    rw [hr] at hkey
    cases hkey
  have hslot : ∀ r, p.target.Covers r →
      s.versionOf env r p.target.slot = s.getNamespaceVersion namespaceKey := by
    intro r hr
    rw [CacheState.versionOf, namespaceKey_of_covers hkey hr]
  have hfloor : PurgeRecord.floor? { p with
      bumpedTo := some (s.getNamespaceVersion namespaceKey + 1)
      returnedAt := some s.clock } = some fun slot =>
        if slot = p.target.slot then s.getNamespaceVersion namespaceKey + 1 else 0 := by
    unfold PurgeRecord.floor?
    split
    · rename_i r htarget
      exact absurd ⟨r, htarget⟩ hnotExact
    · rfl
  refine h.setPurge hp rfl rfl rfl ?_ rfl rfl ?_ (fun t ht => .inl (Option.some.inj ht).symm)
    ?_ ?_
  · intro r slot
    simp only [CacheState.versionOf, CacheState.getNamespaceVersion, Dict.get?_set]
    split
    · rename_i heq
      rw [heq]
      exact Nat.le_succ _
    · exact Nat.le_refl _
  · have hold := h.purges p (List.mem_of_getElem? hp)
    refine ⟨Nat.lt_succ_of_lt hold.issued, ?_, ?_, ?_, ?_⟩
    · intro t ht
      cases ht
      exact Nat.lt_succ_self _
    · intro r hr
      exact absurd ⟨r, hr⟩ hnotExact
    · intro floor hf r hr slot
      obtain rfl := Option.some.inj (hfloor.symm.trans hf)
      simp only
      split
      · rename_i hs
        subst hs
        have hns := namespaceKey_of_covers hkey hr
        simp only [CacheState.versionOf, CacheState.getNamespaceVersion]
        rw [hns, Dict.get?_set_self]
        exact Nat.le_refl _
      · exact Nat.zero_le _
    · intro t r _ _
      exact ⟨_, hfloor⟩
  · intro n hn
    right
    intro call hcall hcovers v hv
    cases hn
    have hread := VersionReads.get_of_versions? hv p.target.slot
    have hle := (h.calls call hcall).readsLe _ _ hread
    rw [hslot _ hcovers] at hle
    omega
  · intro key entry hentry
    refine ⟨hentry, ?_⟩
    intro call f scopeIdentity v hok hcovers _
    refine ⟨?_, fun hexact => absurd hexact hnotExact⟩
    intro floor hf
    obtain rfl := Option.some.inj (hfloor.symm.trans hf)
    refine ⟨p.target.slot, ?_⟩
    have hle := hok.le p.target.slot
    rw [hslot _ hcovers] at hle
    simp only [if_true]
    omega

/-- `purgeExact` reads a version that is not below that of any result it covers. -/
theorem PurgeInv.purgeRead (h : PurgeInv env texts s) {slot : NamespaceSlot}
    (hp : s.purges[i]? = some p) (htarget : p.target = .exact r) (hopen : p.isOpen = true)
    (hslot : p.reads.get slot = none) :
    PurgeInv env texts
      (s.setPurge i { p with reads := p.reads.set slot (s.versionOf env r slot) }) := by
  have hold := h.purges p (List.mem_of_getElem? hp)
  have hreturned := returnedAt_of_isOpen hopen
  have hreads : ∀ slot' n, (p.reads.set slot (s.versionOf env r slot)).get slot' = some n →
      n ≤ s.versionOf env r slot' := by
    intro slot' n hn
    rw [VersionReads.get_set] at hn
    split at hn
    · rename_i heq
      cases hn
      rw [heq]
    · exact hold.readsLe r htarget slot' n hn
  refine h.setPurge hp rfl rfl rfl (fun _ _ => Nat.le_refl _) rfl rfl ?_ ?_ (fun n hn => .inl hn)
    ?_
  · refine ⟨Nat.lt_succ_of_lt hold.issued, ?_, ?_, ?_, ?_⟩
    · intro t ht
      cases hreturned.symm.trans ht
    · intro r' hr' slot' n hn
      obtain rfl := PurgeTarget.exact.inj (htarget.symm.trans hr')
      exact hreads slot' n hn
    · intro floor hfloor r' hcovers slot'
      exact floorLe_exact
        (p := { p with reads := p.reads.set slot (s.versionOf env r slot) }) htarget hreads hfloor
        hcovers slot'
    · intro t r' ht
      cases hreturned.symm.trans ht
  · intro t ht
    cases hreturned.symm.trans ht
  · intro key entry hentry
    refine ⟨hentry, ?_⟩
    intro call f scopeIdentity v hok hcovers hlt
    have hmem := List.mem_of_getElem? hp
    refine ⟨?_, ?_⟩
    · intro floor hfloor
      -- a slot that is read late had counted as 0 until then
      simp only [PurgeRecord.floor?, htarget] at hfloor
      split at hfloor
      · rename_i hdeleted
        cases hfloor
        have hbefore : p.floor? = some fun slot => (p.reads.get slot).getD 0 := by
          simp only [PurgeRecord.floor?, htarget, hdeleted, if_true]
        obtain ⟨slot', hbelow⟩ := hok.below p hmem hcovers hlt _ hbefore
        refine ⟨slot', ?_⟩
        simp only [VersionReads.get_set]
        split
        · rename_i heq
          rw [heq, hslot] at hbelow
          exact absurd hbelow (Nat.not_lt_zero _)
        · exact hbelow
      · cases hfloor
    · intro hexact slot' n hn
      rw [VersionReads.get_set] at hn
      split at hn
      · rename_i heq
        cases hn
        rw [htarget] at hcovers
        rw [versionOf_of_sameKey hcovers.2, heq]
        exact hok.le slot
      · exact hok.readsGe p hmem hcovers hlt hexact slot' n hn

@[simp] theorem finishExact_target (p : PurgeRecord) (clock : Nat) :
    (p.finishExact clock).target = p.target := by
  unfold PurgeRecord.finishExact
  split
  · rfl
  · rfl

@[simp] theorem finishExact_issuedAt (p : PurgeRecord) (clock : Nat) :
    (p.finishExact clock).issuedAt = p.issuedAt := by
  unfold PurgeRecord.finishExact
  split
  · rfl
  · rfl

@[simp] theorem finishExact_reads (p : PurgeRecord) (clock : Nat) :
    (p.finishExact clock).reads = p.reads := by
  unfold PurgeRecord.finishExact
  split
  · rfl
  · rfl

@[simp] theorem finishExact_bumpedTo (p : PurgeRecord) (clock : Nat) :
    (p.finishExact clock).bumpedTo = p.bumpedTo := by
  unfold PurgeRecord.finishExact
  split
  · rfl
  · rfl

@[simp] theorem finishExact_floor? (p : PurgeRecord) (clock : Nat) :
    (p.finishExact clock).floor? = p.floor? := by
  unfold PurgeRecord.finishExact
  split
  · rfl
  · rfl

/-- A purge that returns with the last of its deletions has deleted its entry. -/
theorem finishExact_returnedAt {clock t : Nat} (hopen : p.returnedAt = none)
    (h : (p.finishExact clock).returnedAt = some t) : t = clock ∧ p.deleted = true := by
  unfold PurgeRecord.finishExact at h
  split at h
  · rename_i hboth
    rw [Bool.and_eq_true] at hboth
    exact ⟨(Option.some.inj h).symm, hboth.1⟩
  · cases hopen.symm.trans h

/-- A purge of an exact key with a deletion that succeeds is in order. -/
theorem purgeOk_finishExact (hold : PurgeOk env s p) (htarget : p.target = .exact r)
    (hopen : p.returnedAt = none) (hclock : s'.clock = s.clock + 1)
    (hversions : s'.versions = s.versions) : PurgeOk env s' (p.finishExact s.clock) := by
  have hreads : ∀ slot n, p.reads.get slot = some n → n ≤ s'.versionOf env r slot := by
    intro slot n hn
    rw [versionOf_eq_of_versions hversions]
    exact hold.readsLe r htarget slot n hn
  have hissued := hold.issued
  refine ⟨?_, ?_, ?_, ?_, ?_⟩
  · rw [finishExact_issuedAt]
    omega
  · intro t ht
    obtain ⟨rfl, _⟩ := finishExact_returnedAt hopen ht
    omega
  · intro r' hr' slot n hn
    rw [finishExact_target] at hr'
    rw [finishExact_reads] at hn
    obtain rfl := PurgeTarget.exact.inj (htarget.symm.trans hr')
    exact hreads slot n hn
  · intro floor hfloor r' hcovers slot
    rw [finishExact_floor?] at hfloor
    rw [finishExact_target] at hcovers
    exact floorLe_exact htarget hreads hfloor hcovers slot
  · intro t r' ht _
    obtain ⟨_, hdeleted⟩ := finishExact_returnedAt hopen ht
    rw [finishExact_floor?]
    simp only [PurgeRecord.floor?, htarget, hdeleted, if_true]
    exact ⟨_, rfl⟩

/-- After `purgeExact` has deleted its entry, the earlier results that it covers are stored
    under versions below those that it has read. -/
theorem PurgeInv.purgeDeleted (h : PurgeInv env texts s) (hp : s.purges[i]? = some p)
    (htarget : p.target = .exact r) (hidentity : r.scopeIdentity = some scopeIdentity)
    (hopen : p.isOpen = true) (hreads : p.reads.versions? = some v) :
    PurgeInv env texts { (s.setPurge i ({ p with deleted := true }.finishExact s.clock)) with
      entries := s.entries.erase (r.entryKey env.sha256 env.config scopeIdentity v) } := by
  have hmem := List.mem_of_getElem? hp
  have hreturned := returnedAt_of_isOpen hopen
  have hold := h.purges p hmem
  have hfloor : PurgeRecord.floor? { p with deleted := true } =
      some fun slot => (p.reads.get slot).getD 0 := by
    simp only [PurgeRecord.floor?, htarget, if_true]
  have hdeleted : PurgeOk env s { p with deleted := true } := by
    refine ⟨hold.issued, hold.returned, hold.readsLe, ?_, ?_⟩
    · intro floor hf r' hcovers slot
      exact floorLe_exact (p := { p with deleted := true }) htarget (hold.readsLe r htarget) hf
        hcovers slot
    · intro t r' ht
      cases hreturned.symm.trans ht
  refine h.setPurge hp rfl rfl rfl (fun _ _ => Nat.le_refl _) (finishExact_target _ _)
    (finishExact_issuedAt _ _) (purgeOk_finishExact hdeleted htarget hreturned rfl rfl) ?_ ?_ ?_
  · intro t ht
    exact .inl (finishExact_returnedAt (p := { p with deleted := true }) hreturned ht).1
  · intro n hn
    rw [finishExact_bumpedTo] at hn
    exact .inl hn
  · intro key entry hentry
    rw [Dict.get?_erase] at hentry
    split at hentry
    · cases hentry
    · rename_i hne
      refine ⟨hentry, ?_⟩
      intro call f scopeIdentity' w hok hcovers hlt
      have hge := hok.readsGe p hmem hcovers hlt ⟨r, htarget⟩
      rw [finishExact_reads]
      refine ⟨?_, fun _ => hge⟩
      intro floor hf
      rw [finishExact_floor?, hfloor] at hf
      cases hf
      -- with the same versions it would be the entry that was deleted
      rw [htarget] at hcovers
      have hsame := hcovers.2
      apply Classical.byContradiction
      intro hnone
      have hversions : w = v := by
        apply CacheNamespaceVersions.ext_get
        intro slot
        have hread := VersionReads.get_of_versions? hreads slot
        have hle := hge slot _ hread
        have hnot : ¬ w.get slot < v.get slot := by
          intro hlt'
          refine hnone ⟨slot, ?_⟩
          simp only [hread, Option.getD_some]
          exact hlt'
        omega
      have hid : scopeIdentity' = scopeIdentity := by
        have hids := hok.identity.symm.trans (hsame.scopeIdentity.symm.trans hidentity)
        exact Option.some.inj hids
      apply hne
      rw [hok.key, hversions, hid, entryKey_of_sameKey hsame]

/-- Clearing the counter changes nothing but that the purge may return. -/
theorem PurgeInv.purgeCleared (h : PurgeInv env texts s) {admissions : Dict Nat}
    (hp : s.purges[i]? = some p) (htarget : p.target = .exact r) (hopen : p.isOpen = true) :
    PurgeInv env texts { (s.setPurge i ({ p with cleared := true }.finishExact s.clock)) with
      admissions := admissions } := by
  have hmem := List.mem_of_getElem? hp
  have hreturned := returnedAt_of_isOpen hopen
  have hold := h.purges p hmem
  have hcleared : PurgeOk env s { p with cleared := true } :=
    ⟨hold.issued, hold.returned, hold.readsLe, hold.floorLe, hold.returnedFloor⟩
  refine h.setPurge hp rfl rfl rfl (fun _ _ => Nat.le_refl _) (finishExact_target _ _)
    (finishExact_issuedAt _ _) (purgeOk_finishExact hcleared htarget hreturned rfl rfl) ?_ ?_ ?_
  · intro t ht
    exact .inl (finishExact_returnedAt (p := { p with cleared := true }) hreturned ht).1
  · intro n hn
    rw [finishExact_bumpedTo] at hn
    exact .inl hn
  · intro key entry hentry
    refine ⟨hentry, ?_⟩
    intro call f scopeIdentity v hok hcovers hlt
    rw [finishExact_floor?, finishExact_reads]
    exact ⟨hok.below p hmem hcovers hlt, hok.readsGe p hmem hcovers hlt⟩

/-- A purge that fails does not return. -/
theorem PurgeInv.purgeFailed (h : PurgeInv env texts s) (hp : s.purges[i]? = some p) :
    PurgeInv env texts (s.setPurge i { p with failed := true }) := by
  have hmem := List.mem_of_getElem? hp
  have hold := h.purges p hmem
  refine h.setPurge hp rfl rfl rfl (fun _ _ => Nat.le_refl _) rfl rfl ?_ ?_ (fun n hn => .inl hn)
    ?_
  · exact ⟨Nat.lt_succ_of_lt hold.issued, fun t ht => Nat.lt_succ_of_lt (hold.returned t ht),
      hold.readsLe, hold.floorLe, hold.returnedFloor⟩
  · intro t ht
    exact .inr ⟨ht, rfl⟩
  · intro key entry hentry
    refine ⟨hentry, ?_⟩
    intro call f scopeIdentity v hok hcovers hlt
    exact ⟨hok.below p hmem hcovers hlt, hok.readsGe p hmem hcovers hlt⟩

/-! ## Steps that add a call or a purge, or drop entries -/

theorem PurgeInv.begin (h : PurgeInv env texts s) (hworld : SameWorld s s')
    (hcalls : s'.calls = s.calls ++ [call]) (hentries : s'.entries = s.entries)
    (hok : CacheCallOk env texts s' call) (hsource : call.source = none) :
    PurgeInv env texts s' := by
  refine h.of_calls hworld ?_ ?_ fun key entry hentry => .inl (hentries ▸ hentry)
  · intro d other f hd hf
    refine ⟨other, ?_, hf, rfl⟩
    rw [hcalls, getElem?_snoc]
    exact .inl hd
  · intro other hother
    rw [hcalls, List.mem_append, List.mem_singleton] at hother
    refine hother.imp_right ?_
    rintro rfl
    refine ⟨hok, fun p _ t _ _ _ d hd => ?_⟩
    rw [hsource] at hd
    cases hd with
    | inl hd | inr hd => cases hd

theorem callOk_begin (hr : r.Over texts) {phase : CallPhase}
    (hphase : phase = .looking ∨ phase = .looked) (hclock : s'.clock = s.clock + 1) :
    CacheCallOk env texts s' ⟨r, s.clock, phase, .empty, none, none, none, none⟩ where
  overTexts := hr
  begun := by
    show s.clock < s'.clock
    omega
  started := by
    intro f hf
    cases hf
  notStarted := fun _ => ⟨rfl, rfl⟩
  activeFactory := by
    intro hactive
    cases hactive with
    | inl hleading =>
      cases hphase with
      | inl hp | inr hp => cases hp.symm.trans hleading
    | inr hpending =>
      obtain ⟨reads, hreads⟩ := hpending
      cases hreads
  activeIssued := by
    intro f _ hf
    cases hf
  readsLe := by
    intro slot n hn
    rw [VersionReads.get_empty] at hn
    cases hn
  readsFloor := by
    intro p _ t floor _ _ _ _ slot n hn
    rw [VersionReads.get_empty] at hn
    cases hn
  bumped := by
    intro p _ n v f _ _ hv
    cases hv
  pendingLe := by
    intro reads hreads
    cases hreads
  pendingCaptured := by
    intro reads hreads
    cases hreads

/-- A purge may be issued when no call that it could not reach is in flight. -/
theorem PurgeInv.purge (h : PurgeInv env texts s) {target : PurgeTarget} {returnedAt : Option Nat}
    (hquiet : ∀ call ∈ s.calls, call.Active → ¬ Exposed target call)
    (hreturned : returnedAt = none ∨
      (returnedAt = some s.clock ∧ ∃ r, target = .exact r ∧ r.scopeIdentity = none)) :
    PurgeInv env texts { s with
      clock := s.clock + 1
      purges := s.purges ++
        [⟨target, s.clock, .empty, none, false, false, false, returnedAt⟩] } := by
  have hcases : ∀ q ∈ s.purges ++
      [⟨target, s.clock, .empty, none, false, false, false, returnedAt⟩],
      q ∈ s.purges ∨ q = ⟨target, s.clock, .empty, none, false, false, false, returnedAt⟩ := by
    intro q hq
    rw [List.mem_append, List.mem_singleton] at hq
    exact hq
  -- a purge that returns at once covers nothing
  have hopen : ∀ t r, returnedAt = some t → ¬ target.Covers r := by
    intro t r ht hcovers
    cases hreturned with
    | inl hnone => cases hnone.symm.trans ht
    | inr hexact =>
      obtain ⟨_, r', rfl, hmissing⟩ := hexact
      exact hcovers.1 hmissing
  have hfloor : PurgeRecord.floor?
      ⟨target, s.clock, .empty, none, false, false, false, returnedAt⟩ = none := by
    unfold PurgeRecord.floor?
    split
    · rfl
    · rfl
  refine ⟨?_, ?_, ?_, ?_⟩
  · intro call hcall
    have hcallOk := h.calls call hcall
    exact {
      overTexts := hcallOk.overTexts
      begun := Nat.lt_succ_of_lt hcallOk.begun
      started := fun f hf => Nat.lt_succ_of_lt (hcallOk.started f hf)
      notStarted := hcallOk.notStarted
      activeFactory := hcallOk.activeFactory
      activeIssued := by
        intro f hactive hf q hq hexposed
        cases hcases q hq with
        | inl hq => exact hcallOk.activeIssued f hactive hf q hq hexposed
        | inr hq =>
          subst hq
          exact absurd hexposed (hquiet call hcall hactive)
      readsLe := hcallOk.readsLe
      readsFloor := by
        intro q hq t floor ht hlt hcovers
        cases hcases q hq with
        | inl hq => exact hcallOk.readsFloor q hq t floor ht hlt hcovers
        | inr hq =>
          subst hq
          exact absurd hcovers (hopen t _ ht)
      bumped := by
        intro q hq n v f hn
        cases hcases q hq with
        | inl hq => exact hcallOk.bumped q hq n v f hn
        | inr hq =>
          subst hq
          cases hn
      pendingLe := hcallOk.pendingLe
      pendingCaptured := hcallOk.pendingCaptured }
  · intro q hq
    cases hcases q hq with
    | inl hq => exact (h.purges q hq).mono (Nat.le_succ _) (fun _ _ => Nat.le_refl _)
    | inr hq =>
      subst hq
      refine ⟨Nat.lt_succ_self _, ?_, ?_, ?_, ?_⟩
      · intro t ht
        cases hreturned with
        | inl hnone => cases hnone.symm.trans ht
        | inr hexact =>
          obtain rfl := Option.some.inj (hexact.1.symm.trans ht)
          exact Nat.lt_succ_self _
      · intro r _ slot n hn
        rw [VersionReads.get_empty] at hn
        cases hn
      · intro floor hf
        cases hfloor.symm.trans hf
      · intro t r ht hcovers
        exact absurd hcovers (hopen t r ht)
  · intro key entry hentry
    obtain ⟨call, f, scopeIdentity, v, hentryOk⟩ := h.entries key entry hentry
    refine ⟨call, f, scopeIdentity, v, hentryOk.producer, hentryOk.factory, hentryOk.identity,
      hentryOk.key, hentryOk.le, ?_, ?_⟩
    · intro q hq hcovers hlt floor hf
      cases hcases q hq with
      | inl hq => exact hentryOk.below q hq hcovers hlt floor hf
      | inr hq =>
        subst hq
        cases hfloor.symm.trans hf
    · intro q hq hcovers hlt hexact slot n hn
      cases hcases q hq with
      | inl hq => exact hentryOk.readsGe q hq hcovers hlt hexact slot n hn
      | inr hq =>
        subst hq
        rw [VersionReads.get_empty] at hn
        cases hn
  · intro call hcall q hq t ht hlt hcovers
    cases hcases q hq with
    | inl hq => exact h.sources call hcall q hq t ht hlt hcovers
    | inr hq =>
      subst hq
      exact absurd hcovers (hopen t _ ht)

/-- Entries may go at any time. -/
theorem PurgeInv.drop (h : PurgeInv env texts s) (hworld : SameWorld s s')
    (hcalls : s'.calls = s.calls)
    (hentries : ∀ key entry, s'.entries.get? key = some entry →
      s.entries.get? key = some entry) : PurgeInv env texts s' := by
  refine h.of_calls hworld (fun d call f hd hf => ⟨call, hcalls ▸ hd, hf, rfl⟩)
    (fun call hcall => .inl (hcalls ▸ hcall)) fun key entry hentry => ?_
  exact .inl (hentries key entry hentry)

/-! ## Steps of a call -/

/-- A call that goes on with the same factory call and the same source. -/
theorem PurgeInv.keepCall (h : PurgeInv env texts s) {call : CacheCall}
    (hcall : s.calls[c]? = some call) (hworld : SameWorld s s')
    (hcalls : s'.calls = s.calls.set c call') (hentries : s'.entries = s.entries)
    (hrequest : call'.request = call.request) (hbegun : call'.begunAt = call.begunAt)
    (hfactory : call'.factoryAt = call.factoryAt) (hsource : call'.source = call.source)
    (hok : CacheCallOk env texts s call') : PurgeInv env texts s' := by
  have hkept : ∀ f, call.factoryAt = some f → call'.factoryAt = some f := by
    intro f hf
    rw [hfactory]
    exact hf
  have hsource' := ((h.sources call (List.mem_of_getElem? hcall)).congr hrequest hbegun hsource).mono
    (callsKept_set hcall hcalls hrequest hkept) hworld.purges
  refine h.setCall hcall hworld hcalls hrequest hkept
    (hok.mono hworld.clock_le hworld.versionOf hworld.purges) hsource' ?_
  intro key entry hentry
  rw [hentries] at hentry
  exact .inl hentry

/-- A call in `lookup` reads a version, which is not below the floor of any purge that has
    returned. -/
theorem PurgeInv.read (h : PurgeInv env texts s) {slot : NamespaceSlot}
    (hcall : s.calls[c]? = some call) (hphase : call.phase = .looking) :
    PurgeInv env texts (s.setCall c
      { call with reads := call.reads.set slot (s.versionOf env call.request slot) }) := by
  have hcallOk := h.calls call (List.mem_of_getElem? hcall)
  have hle : ∀ slot' n, (call.reads.set slot (s.versionOf env call.request slot)).get slot' =
      some n → n ≤ s.versionOf env call.request slot' := by
    intro slot' n hn
    rw [VersionReads.get_set] at hn
    split at hn
    · rename_i heq
      cases hn
      rw [heq]
    · exact hcallOk.readsLe slot' n hn
  have hread := hcallOk.withReads hphase call.phase (.inl hphase) _ hle ?_
  · exact h.keepCall hcall ⟨rfl, rfl, rfl⟩ rfl rfl rfl rfl rfl rfl hread
  · intro p hp t floor ht hlt hcovers hfloor slot' n hn
    rw [VersionReads.get_set] at hn
    split at hn
    · rename_i heq
      cases hn
      rw [heq]
      exact (h.purges p hp).floorLe floor hfloor _ hcovers slot
    · exact hcallOk.readsFloor p hp t floor ht hlt hcovers hfloor slot' n hn

/-- A lookup that cannot read its versions goes on without any. -/
theorem PurgeInv.readFailed (h : PurgeInv env texts s) (hcall : s.calls[c]? = some call)
    (hphase : call.phase = .looking) :
    PurgeInv env texts (s.setCall c { call with phase := .looked, reads := .empty }) := by
  have hcallOk := h.calls call (List.mem_of_getElem? hcall)
  refine h.keepCall hcall ⟨rfl, rfl, rfl⟩ rfl rfl rfl rfl rfl rfl
    (hcallOk.withReads hphase .looked (.inr rfl) .empty ?_ ?_)
  · intro slot n hn
    rw [VersionReads.get_empty] at hn
    cases hn
  · intro p _ t floor _ _ _ _ slot n hn
    rw [VersionReads.get_empty] at hn
    cases hn

/-- A call that takes its result from an entry or from a flight gets none from before a purge
    that it begins after. -/
theorem PurgeInv.takeResult (h : PurgeInv env texts s) {c d : Nat} {call : CacheCall}
    (hcall : s.calls[c]? = some call) (hworld : SameWorld s s')
    (hcalls : s'.calls = s.calls.set c call') (hentries : s'.entries = s.entries)
    (hrequest : call'.request = call.request) (hbegun : call'.begunAt = call.begunAt)
    (hreads : call'.reads = call.reads) (hfactory : call'.factoryAt = call.factoryAt)
    (hbackground : call'.background = call.background)
    (hearly : call.phase = .looking ∨ call.phase = .looked)
    (hphase : call'.phase ≠ .leading ∧ call'.phase ≠ .looking ∧ call'.phase ≠ .looked)
    (hsource : call'.source = some (.cached d) ∨ call'.source = some (.coalesced d))
    (hfresh : ∀ p ∈ s.purges, ∀ t, p.returnedAt = some t → t < call.begunAt →
      p.target.Covers call.request →
      ∃ producer f, s.calls[d]? = some producer ∧ producer.factoryAt = some f ∧ p.issuedAt ≤ f) :
    PurgeInv env texts s' := by
  have hcallOk := h.calls call (List.mem_of_getElem? hcall)
  have hkept : ∀ f, call.factoryAt = some f → call'.factoryAt = some f := by
    intro f hf
    rw [hfactory]
    exact hf
  have hquiet : call'.pendingReads = none := by
    rw [CacheCall.pendingReads, hbackground]
    exact (hcallOk.notStarted hearly).2
  have hok : CacheCallOk env texts s call' := by
    refine hcallOk.keep_quiet hrequest hbegun hreads hfactory hphase.1 hquiet ?_
    intro hcase
    cases hcase with
    | inl hcase => exact absurd hcase hphase.2.1
    | inr hcase => exact absurd hcase hphase.2.2
  refine h.setCall hcall hworld hcalls hrequest hkept
    (hok.mono hworld.clock_le hworld.versionOf hworld.purges) ?_ ?_
  · intro p hp t ht hlt hcovers d' hd'
    rw [hworld.purges] at hp
    rw [hbegun] at hlt
    rw [hrequest] at hcovers
    have hd : d' = d := by
      cases hsource with
      | inl hsource =>
        rw [hsource] at hd'
        cases hd' with
        | inl hd' => exact (ResultSource.cached.inj (Option.some.inj hd')).symm
        | inr hd' => cases hd'
      | inr hsource =>
        rw [hsource] at hd'
        cases hd' with
        | inl hd' => cases hd'
        | inr hd' => exact (ResultSource.coalesced.inj (Option.some.inj hd')).symm
    rw [hd]
    obtain ⟨producer, f, hproducer, hf, hle⟩ := hfresh p hp t ht hlt hcovers
    obtain ⟨producer', hproducer', hf', _⟩ :=
      callsKept_set hcall hcalls hrequest hkept d producer f hproducer hf
    exact ⟨producer', f, hproducer', hf', hle⟩
  · intro key entry hentry
    rw [hentries] at hentry
    exact .inl hentry

/-- A call calls its factory. -/
theorem PurgeInv.startFactory (h : PurgeInv env texts s) {call : CacheCall}
    (hcall : s.calls[c]? = some call) (hphase : call.phase = .looked) (hworld : SameWorld s s')
    (hcalls : s'.calls = s.calls.set c call') (hentries : s'.entries = s.entries)
    (hrequest : call'.request = call.request) (hbegun : call'.begunAt = call.begunAt)
    (hreads : call'.reads = call.reads) (hfactory : call'.factoryAt = some s.clock)
    (hbackground : call'.background = call.background)
    (hearly : call'.phase ≠ .looking ∧ call'.phase ≠ .looked) (hsource : call'.source = some .own) :
    PurgeInv env texts s' := by
  have hcallOk := h.calls call (List.mem_of_getElem? hcall)
  refine h.setCall hcall hworld hcalls hrequest ?_
    (hcallOk.startFactory h.purges hphase hworld hrequest hbegun hreads hfactory hbackground hearly)
    (resultSourceOk_own hsource) ?_
  · intro f hf
    cases (hcallOk.notStarted (.inr hphase)).1.symm.trans hf
  · intro key entry hentry
    rw [hentries] at hentry
    exact .inl hentry

/-- A leader that leaves the registry stores under the versions that it has captured. -/
theorem callOk_release (h : CacheCallOk env texts s call) (hphase : call.phase = .leading)
    {background : Option StorePhase}
    (hbackground : ∀ reads, background.bind StorePhase.pendingReads = some reads →
      reads = .ofCaptured call.lookupVersions) :
    CacheCallOk env texts s { call with phase := .finished, background := background } := by
  refine h.keep rfl rfl rfl rfl (fun _ => .inl hphase) ?_ ?_
  · intro hcase
    cases hcase with
    | inl hcase | inr hcase => cases hcase
  · intro reads hpending
    obtain rfl := hbackground reads hpending
    refine ⟨?_, fun v hv => by rw [VersionReads.versions?_ofCaptured, hv]⟩
    intro slot n hn
    obtain ⟨v, hv, rfl⟩ := VersionReads.get_ofCaptured hn
    exact h.readsLe slot _ (VersionReads.get_of_versions? hv slot)

variable {next : Option StorePhase}

/-- A background store that goes on reads current versions, unless it has captured some. -/
theorem callOk_background (h : CacheCallOk env texts s call)
    (hnext : BackgroundNext env s call next) :
    CacheCallOk env texts s { call with background := next } := by
  have hbefore : ∀ reads', CacheCall.pendingReads { call with background := next } = some reads' →
      ∃ reads, call.pendingReads = some reads := by
    intro reads' hreads'
    obtain ⟨reads, hreads, _⟩ := hnext reads' hreads'
    exact ⟨reads, hreads⟩
  refine h.keep rfl rfl rfl rfl ?_ ?_ ?_
  · intro hactive
    cases hactive with
    | inl hleading => exact .inl hleading
    | inr hpending =>
      obtain ⟨reads', hreads'⟩ := hpending
      exact .inr (hbefore reads' hreads')
  · intro hcase
    obtain ⟨hnone, hquiet⟩ := h.notStarted hcase
    refine ⟨hnone, ?_⟩
    cases hp : CacheCall.pendingReads { call with background := next } with
    | none => rfl
    | some reads' =>
      obtain ⟨reads, hreads⟩ := hbefore reads' hp
      cases hquiet.symm.trans hreads
  · intro reads' hreads'
    obtain ⟨reads, hreads, hcases⟩ := hnext reads' hreads'
    cases hcases with
    | inl hcaptured =>
      subst hcaptured
      refine ⟨?_, fun v hv => by rw [VersionReads.versions?_ofCaptured, hv]⟩
      intro slot n hn
      obtain ⟨v, hv, rfl⟩ := VersionReads.get_ofCaptured hn
      exact h.readsLe slot _ (VersionReads.get_of_versions? hv slot)
    | inr hread =>
      obtain ⟨slot, hslot, rfl⟩ := hread
      refine ⟨?_, ?_⟩
      · intro slot' n hn
        rw [VersionReads.get_set] at hn
        split at hn
        · rename_i heq
          cases hn
          rw [heq]
        · exact h.pendingLe reads hreads slot' n hn
      · intro v hv
        -- with captured versions there is nothing left to read
        have hcomplete := h.pendingCaptured reads hreads v hv
        cases hslot.symm.trans (VersionReads.get_of_versions? hcomplete slot)

/-- A background store writes its entry. -/
theorem PurgeInv.stored (h : PurgeInv env texts s) {reads : VersionReads} (result : Json)
    (hcall : s.calls[c]? = some call) (hidentity : call.request.scopeIdentity = some scopeIdentity)
    (hpending : call.pendingReads = some reads) (hreads : reads.versions? = some v)
    (hnext : next.bind StorePhase.pendingReads = none) :
    PurgeInv env texts { (s.setCall c { call with background := next }) with
      entries := s.entries.set
        (call.request.entryKey env.sha256 env.config scopeIdentity v) ⟨result, c⟩ } := by
  have hmem := List.mem_of_getElem? hcall
  have hcallOk := h.calls call hmem
  have hbackground : BackgroundNext env s call next := by
    intro reads' hreads'
    cases hnext.symm.trans hreads'
  have hworld : SameWorld s { (s.setCall c { call with background := next }) with
      entries := s.entries.set
        (call.request.entryKey env.sha256 env.config scopeIdentity v) ⟨result, c⟩ } :=
    ⟨rfl, rfl, rfl⟩
  have hkept : CallsKept s { (s.setCall c { call with background := next }) with
      entries := s.entries.set
        (call.request.entryKey env.sha256 env.config scopeIdentity v) ⟨result, c⟩ } :=
    callsKept_set hcall rfl rfl (fun _ hf => hf)
  refine h.setCall hcall hworld rfl rfl (fun _ hf => hf)
    ((callOk_background hcallOk hbackground).mono hworld.clock_le hworld.versionOf rfl)
    (((h.sources call hmem).congr rfl rfl rfl).mono hkept rfl) ?_
  intro key entry hentry
  rw [Dict.get?_set] at hentry
  split at hentry
  · rename_i hkey
    cases hentry
    obtain ⟨f, hentryOk⟩ := stored_entryOk h hcall hidentity hpending hreads result
    rw [← hkey] at hentryOk
    exact .inr (hentryOk.mono hkept hworld.versionOf rfl)
  · exact .inl hentry

end

/-! ## Runs -/

/-- The steps by which a result may outlive a purge are left out: a bump fails; `purgeExact`
    cannot read its versions; a purge is issued while a call that it covers but cannot reach is
    between the call of its factory and the end of its background store; a call joins the flight
    of a call with another key. -/
def StepOk (env : CacheEnv) (s : CacheState) : CacheAction → Prop
  | .bump _ ok => ok = true
  | .purgeRead _ _ ok => ok = true
  | .purge target => ∀ call ∈ s.calls, call.Active → ¬ Exposed target call
  | .enter c => ∀ call scopeIdentity flight leader, s.calls[c]? = some call →
    call.request.scopeIdentity = some scopeIdentity →
    s.inflight.get? (singleflightKey env.sha256 call.request scopeIdentity call.lookupVersions) =
      some flight →
    s.calls[flight.leader]? = some leader → SameKey call.request leader.request
  | _ => True

/-- The texts that a step hashes are among the given ones. -/
def ActionOver (texts : Set String) : CacheAction → Prop
  | .begin r => r.Over texts
  | _ => True

/-- No call that begins after a purge has returned gets a result of a factory that was called
    before the purge was issued, if the purge covers its request. -/
def NoStaleResults (s : CacheState) : Prop :=
  ∀ p ∈ s.purges, ∀ returnedAt, p.returnedAt = some returnedAt →
    ∀ call ∈ s.calls, returnedAt < call.begunAt → p.target.Covers call.request →
    ∀ d, call.source = some (.cached d) ∨ call.source = some (.coalesced d) →
      ∃ producer f, s.calls[d]? = some producer ∧ producer.factoryAt = some f ∧ p.issuedAt ≤ f

section

variable {env : CacheEnv} {texts : Set String} {s s' : CacheState}

/-- One step that is left in keeps the invariant. -/
theorem PurgeInv.step (h : PurgeInv env texts s) (hflights : FlightsOk env s)
    (hinj : Set.InjOn env.sha256 texts)
    (hdigest : ∀ x ∈ texts, isDigest (env.sha256 x) = true) {a : CacheAction}
    (hstep : CacheSystem.step env s a = some s') (hover : ActionOver texts a)
    (hok : StepOk env s a) : PurgeInv env texts s' := by
  cases step_effect hstep with
  | begin r phase hphase =>
    exact h.begin ⟨rfl, rfl, rfl⟩ rfl rfl (callOk_begin hover hphase rfl) rfl
  | read c slot call hcall hphase hslot => exact h.read hcall hphase
  | readFailed c slot call hcall hphase => exact h.readFailed hcall hphase
  | hit c call v scopeIdentity entry hcall hphase hreads hidentity hentry =>
    refine h.takeResult hcall ⟨rfl, rfl, rfl⟩ rfl rfl rfl rfl rfl rfl rfl (.inl hphase)
      (by simp) (.inl rfl) ?_
    intro p hp t ht hlt hcovers
    exact cached_not_stale h hinj hdigest (List.mem_of_getElem? hcall) hreads hidentity hentry hp
      ht hlt hcovers
  | missed c reply call hcall hphase =>
    obtain ⟨hnone, hquiet⟩ :=
      (h.calls call (List.mem_of_getElem? hcall)).notStarted (.inl hphase)
    exact h.keepCall hcall ⟨rfl, rfl, rfl⟩ rfl rfl rfl rfl rfl rfl
      ((h.calls call (List.mem_of_getElem? hcall)).keep_quiet rfl rfl rfl rfl (by simp) hquiet
        (fun _ => hnone))
  | direct _ _ hcall hphase _ | lead _ _ _ hcall hphase _ _ =>
    exact h.startFactory hcall hphase ⟨rfl, rfl, rfl⟩ rfl rfl rfl rfl rfl rfl rfl (by simp) rfl
  | join c call scopeIdentity flight hcall hphase hidentity hflight =>
    obtain ⟨leader, scopeIdentity', hleader, hleading, hidentity', hkey⟩ :=
      hflights.leads _ flight hflight
    have hsame := hok call scopeIdentity flight leader hcall hidentity hflight hleader
    obtain rfl := Option.some.inj
      (hidentity'.symm.trans (hsame.scopeIdentity.symm.trans hidentity))
    have hversions := versions_of_singleflightKey_eq hsame hkey
    refine h.takeResult hcall ⟨rfl, rfl, rfl⟩ rfl rfl rfl rfl rfl rfl rfl (.inr hphase)
      (by simp) (.inr rfl) ?_
    intro p hp t ht hlt hcovers
    obtain ⟨f, hf, hle⟩ := coalesced_not_stale h (List.mem_of_getElem? hcall)
      (List.mem_of_getElem? hleader) hleading hsame hversions hp ht hlt hcovers
    exact ⟨leader, f, hleader, hf, hle⟩
  | settled c outcome call phase hcall hsettled hphase =>
    have hcallOk := h.calls call (List.mem_of_getElem? hcall)
    refine h.keepCall hcall ⟨rfl, rfl, rfl⟩ rfl rfl rfl rfl rfl rfl
      (hcallOk.keep rfl rfl rfl rfl ?_ ?_ ?_)
    · intro hactive
      cases hactive with
      | inl hleading =>
        cases hphase with
        | inl hphase => cases hphase.2.symm.trans hleading
        | inr hphase => exact .inl hphase.1
      | inr hpending => exact .inr hpending
    · intro hcase
      cases hphase with
      | inl hphase | inr hphase =>
        simp only [hphase.2] at hcase
        cases hcase with
        | inl hcase | inr hcase => cases hcase
    · intro reads hpending
      exact ⟨hcallOk.pendingLe reads hpending, hcallOk.pendingCaptured reads hpending⟩
  | released c call scopeIdentity inflight background hcall hphase hidentity hinflight hbackground =>
    exact h.keepCall hcall ⟨rfl, rfl, rfl⟩ rfl rfl rfl rfl rfl rfl
      (callOk_release (h.calls call (List.mem_of_getElem? hcall)) hphase hbackground)
  | resumed c leader call hcall hphase =>
    have hcallOk := h.calls call (List.mem_of_getElem? hcall)
    refine h.keepCall hcall ⟨rfl, rfl, rfl⟩ rfl rfl rfl rfl rfl rfl
      (hcallOk.keep rfl rfl rfl rfl ?_ (by simp) ?_)
    · intro hactive
      cases hactive with
      | inl hleading => cases hleading
      | inr hpending => exact .inr hpending
    · intro reads hpending
      exact ⟨hcallOk.pendingLe reads hpending, hcallOk.pendingCaptured reads hpending⟩
  | background a c call next admissions hcall hnext =>
    exact h.keepCall hcall ⟨rfl, rfl, rfl⟩ rfl rfl rfl rfl rfl rfl
      (callOk_background (h.calls call (List.mem_of_getElem? hcall)) hnext)
  | stored c call reads v scopeIdentity result next hcall hidentity hpending hreads hnext =>
    exact h.stored result hcall hidentity hpending hreads hnext
  | purge target returnedAt hreturned => exact h.purge hok hreturned
  | bumped i p namespaceKey hp hkey hopen => exact h.bumped hp hkey
  | bumpFailed | purgeReadFailed => cases hok
  | purgeRead i slot p r hp htarget hopen hslot => exact h.purgeRead hp htarget hopen hslot
  | purgeDeleted i p r v scopeIdentity hp htarget hidentity hopen hreads =>
    exact h.purgeDeleted hp htarget hidentity hopen hreads
  | purgeCleared i p r admissions hp htarget hopen => exact h.purgeCleared hp htarget hopen
  | purgeFailed a i p hp => exact h.purgeFailed hp
  | expired key =>
    refine h.drop ⟨rfl, rfl, rfl⟩ rfl ?_
    intro key' entry hentry
    rw [Dict.get?_erase] at hentry
    split at hentry
    · cases hentry
    · exact hentry
  | admissionExpired key => exact h.drop ⟨rfl, rfl, rfl⟩ rfl (fun _ _ hentry => hentry)

/-- In every run in which no bump fails, `purgeExact` reads its versions, no purge is issued
    while a call that it covers but cannot reach is in flight, and calls join only flights of
    their own key: no result outlives a purge. -/
theorem no_result_outlives_purge (env : CacheEnv) (texts : Set String)
    (hinj : Set.InjOn env.sha256 texts) (hdigest : ∀ x ∈ texts, isDigest (env.sha256 x) = true)
    (trs : List (Transition CacheState CacheAction)) (t : CacheState)
    (hrun : IsRun (CacheSystem.step env) .init trs t)
    (hover : ∀ tr ∈ trs, ActionOver texts tr.act)
    (hok : ∀ tr ∈ trs, StepOk env tr.pre tr.act) : NoStaleResults t := by
  have hinv : PurgeInv env texts t ∧ FlightsOk env t := by
    refine IsRun.history_of (G := fun tr => ActionOver texts tr.act ∧ StepOk env tr.pre tr.act)
      (P := fun _ t => PurgeInv env texts t ∧ FlightsOk env t)
      ⟨PurgeInv.init env texts, FlightsOk.init env⟩ ?_ hrun (fun tr htr => ⟨hover tr htr, hok tr htr⟩)
    intro trs s a s' _ hinv hstep hguard
    exact ⟨hinv.1.step hinv.2 hinj hdigest hstep hguard.1 hguard.2, hinv.2.step hstep⟩
  intro p hp returnedAt hreturned call hcall hlt hcovers d hd
  exact hinv.1.sources call hcall p hp returnedAt hreturned hlt hcovers d hd

end

/-! ### Runs with a purge while a call is in flight -/

def purgeEnv : CacheEnv where
  sha256 := exampleDigest
  config := ⟨true, "peta"⟩
  fitsEntry := fun _ _ => true

/-- The request of all calls below. -/
def purgedRequest : CacheRequest := toolRequest "files" "purge"

theorem over_purgedRequest : purgedRequest.Over exampleTexts where
  entityId := by simp [purgedRequest, toolRequest, exampleTexts]
  scopeIdentity := by
    intro i hi
    cases hi
    simp [exampleTexts]
  canonical := by
    rw [purgedRequest, canonical_toolRequest]
    simp [exampleTexts]

/-- The requests of a list of actions are all `purgedRequest`. -/
def beginsOnly (acts : List CacheAction) : Prop :=
  ∀ r, .begin r ∈ acts → r = purgedRequest

variable {s : CacheState} {acts : List CacheAction}

theorem actionOver_of_beginsOnly (h : beginsOnly acts) {tr : Transition CacheState CacheAction}
    (htr : tr ∈ trace (CacheSystem.step purgeEnv) s acts) : ActionOver exampleTexts tr.act := by
  have hact := act_mem_of_mem_trace s acts tr htr
  cases hcase : tr.act with
  | begin r =>
    rw [hcase] at hact
    rw [h r hact]
    exact over_purgedRequest
  | _ => exact trivial

/-- A purge that bumps, while only calls with versions are there, and a call that finds no
    flight. -/
def stepCheck (env : CacheEnv) (s : CacheState) : CacheAction → Bool
  | .bump _ ok => ok
  | .purgeRead _ _ ok => ok
  | .purge (.exact _) => false
  | .purge _ => s.calls.all fun call => call.lookupVersions.isSome
  | .enter c =>
    match s.calls[c]? with
    | none => true
    | some call =>
      match call.request.scopeIdentity with
      | none => true
      | some i =>
        (s.inflight.get? (singleflightKey env.sha256 call.request i call.lookupVersions)).isNone
  | _ => true

theorem stepOk_of_stepCheck {env : CacheEnv} {a : CacheAction}
    (h : stepCheck env s a = true) : StepOk env s a := by
  cases a with
  | bump _ _ | purgeRead _ _ _ => exact h
  | purge target =>
    intro call hcall _ hexposed
    have hall : ∀ target, stepCheck env s (.purge target) = true → ¬ target.IsExact ∧
        (s.calls.all fun call => call.lookupVersions.isSome) = true := by
      intro target h
      cases target with
      | exact r => cases h
      | global | server _ | tool _ _ | prompt _ _
      | resource _ _ => exact ⟨(fun he => by cases he.choose_spec), h⟩
    obtain ⟨hexact, hversions⟩ := hall target h
    cases hexposed.2 with
    | inl he => exact hexact he
    | inr hnone =>
      have hsome := List.all_eq_true.mp hversions call hcall
      rw [hnone] at hsome
      cases hsome
  | enter c =>
    intro call i flight leader hcall hi hflight _
    simp only [stepCheck, hcall, hi, hflight] at h
    cases h
  | _ => exact trivial

/-- A purge between the call of a factory and the store of its result. The store writes under
    the versions of before, and a later call has to call its own factory. -/
def purgeRun : List CacheAction :=
  .begin purgedRequest :: missedLookup 0 ++
    [.enter 0, .purge (.tool "files" "purge"), .bump 0 true, .settle 0 (.ok (.str "before")),
      .release 0, .storeWrite 0 true, .begin purgedRequest] ++ missedLookup 1 ++ [.enter 1]

theorem no_result_outlives_purge_purgeRun :
    ∃ t trs, IsRun (CacheSystem.step purgeEnv) .init trs t ∧
      t.calls.map (fun call => (call.begunAt, call.factoryAt, call.source)) =
        [(0, some 5, some .own), (11, some 16, some .own)] ∧
      t.purges.map (fun p => (p.issuedAt, p.returnedAt)) = [(6, some 7)] ∧
      NoStaleResults t := by
  have hexec : (exec (CacheSystem.step purgeEnv) .init purgeRun).map (fun t =>
      (t.calls.map (fun call => (call.begunAt, call.factoryAt, call.source)),
        t.purges.map (fun p => (p.issuedAt, p.returnedAt)))) =
      some ([(0, some 5, some .own), (11, some 16, some .own)], [(6, some 7)]) := by
    decide +kernel
  obtain ⟨t, ht, hobserved⟩ := Option.map_eq_some_iff.mp hexec
  obtain ⟨hcalls, hpurges⟩ := Prod.mk.inj hobserved
  have hrun := isRun_trace CacheState.init t purgeRun ht
  refine ⟨t, _, hrun, hcalls, hpurges, ?_⟩
  refine no_result_outlives_purge purgeEnv exampleTexts injOn_exampleDigest isDigest_exampleDigest
    _ t hrun ?_ ?_
  · intro tr htr
    refine actionOver_of_beginsOnly ?_ htr
    intro r hr
    simpa [purgeRun, missedLookup] using hr
  · have hcheck : ((trace (CacheSystem.step purgeEnv) .init purgeRun).all fun tr =>
        stepCheck purgeEnv tr.pre tr.act) = true := by decide +kernel
    intro tr htr
    exact stepOk_of_stepCheck (List.all_eq_true.mp hcheck tr htr)

/-- A call that could not read its versions stores its result under those that it reads after
    the purge. -/
def rereadRun : List CacheAction :=
  [.begin purgedRequest, .readVersion 0 .global false, .enter 0,
    .purge (.tool "files" "purge"), .bump 0 true, .settle 0 (.ok (.str "before")), .release 0,
    .storeRead 0 .global true, .storeRead 0 .server true, .storeRead 0 .entity true,
    .storeWrite 0 true, .begin purgedRequest] ++ missedLookup 1

/-- A purge whose bump fails returns like any other. -/
def bumpFailsRun : List CacheAction :=
  .begin purgedRequest :: missedLookup 0 ++
    [.enter 0, .purge (.tool "files" "purge"), .bump 0 false, .settle 0 (.ok (.str "before")),
      .release 0, .storeWrite 0 true, .begin purgedRequest] ++ missedLookup 1

/-- `purgeExact` deletes an entry that is stored only after it. -/
def exactRun : List CacheAction :=
  .begin purgedRequest :: missedLookup 0 ++
    [.enter 0, .purge (.exact purgedRequest), .purgeRead 0 .global true, .purgeRead 0 .server true,
      .purgeRead 0 .entity true, .purgeDelete 0 true, .purgeClear 0 true,
      .settle 0 (.ok (.str "before")), .release 0, .storeWrite 0 true, .begin purgedRequest] ++
    missedLookup 1

/-- Whether a call got the stored result of a factory that was called before a purge that had
    returned when the call began. -/
def isStale (s : CacheState) (p : PurgeRecord) (call : CacheCall) : Bool :=
  match p.returnedAt, call.source with
  | some returnedAt, some (.cached d) =>
    decide (returnedAt < call.begunAt) && decide (p.target.Covers call.request) &&
      ((s.calls[d]?.bind (·.factoryAt)).all fun f => decide (f < p.issuedAt))
  | _, _ => false

theorem not_noStaleResults
    (h : (s.purges.any fun p => s.calls.any fun call => isStale s p call) = true) :
    ¬ NoStaleResults s := by
  intro hfresh
  obtain ⟨p, hp, hcalls⟩ := List.any_eq_true.mp h
  obtain ⟨call, hcall, hstale⟩ := List.any_eq_true.mp hcalls
  unfold isStale at hstale
  split at hstale
  · rename_i returnedAt d hreturned hsource
    simp only [Bool.and_eq_true, decide_eq_true_eq] at hstale
    obtain ⟨⟨hlt, hcovers⟩, hbefore⟩ := hstale
    obtain ⟨producer, f, hd, hf, hle⟩ :=
      hfresh p hp returnedAt hreturned call hcall hlt hcovers d (.inl hsource)
    simp only [hd, Option.bind_some, hf, Option.all_some, decide_eq_true_eq] at hbefore
    omega
  · cases hstale

/-- A run by which the second of its calls gets a result that outlived a purge. -/
def runsStale (acts : List CacheAction) : Bool :=
  (exec (CacheSystem.step purgeEnv) .init acts).any fun s =>
    s.purges.any fun p => s.calls.any fun call => isStale s p call

theorem runsStale_elim (h : runsStale acts = true) :
    ∃ t, exec (CacheSystem.step purgeEnv) .init acts = some t ∧ ¬ NoStaleResults t := by
  obtain ⟨t, ht, hstale⟩ := (Option.any_eq_true _ _).mp h
  exact ⟨t, ht, not_noStaleResults hstale⟩

theorem results_outlive_purges :
    (¬ ∀ (env : CacheEnv) (texts : Set String), Set.InjOn env.sha256 texts →
      (∀ x ∈ texts, isDigest (env.sha256 x) = true) →
      ∀ (trs : List (Transition CacheState CacheAction)) (t : CacheState),
      IsRun (CacheSystem.step env) .init trs t → (∀ tr ∈ trs, ActionOver texts tr.act) →
      NoStaleResults t) ∧
    (∃ t, exec (CacheSystem.step purgeEnv) .init rereadRun = some t ∧ ¬ NoStaleResults t) ∧
    (∃ t, exec (CacheSystem.step purgeEnv) .init bumpFailsRun = some t ∧ ¬ NoStaleResults t) ∧
    ∃ t, exec (CacheSystem.step purgeEnv) .init exactRun = some t ∧ ¬ NoStaleResults t := by
  have hreread := runsStale_elim (show runsStale rereadRun = true by decide +kernel)
  refine ⟨?_, hreread, runsStale_elim (by decide +kernel), runsStale_elim (by decide +kernel)⟩
  intro hall
  obtain ⟨t, ht, hstale⟩ := hreread
  refine hstale (hall purgeEnv exampleTexts injOn_exampleDigest isDigest_exampleDigest _ t
    (isRun_trace CacheState.init t rereadRun ht) ?_)
  intro tr htr
  refine actionOver_of_beginsOnly ?_ htr
  intro r hr
  simpa [rereadRun, missedLookup] using hr

end PetaCore
