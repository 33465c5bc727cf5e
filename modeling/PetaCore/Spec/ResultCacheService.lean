import PetaCore.Core.ResultCacheService

/-!
# What a step of the result cache does

One inversion theorem for all steps: each of them changes one call or one purge, and at most
one of the tables. Invariants of the system are proved by cases over its effects.

## Key results

- `step_effect`: everything that a step can do
- `FlightsOk.of_run`: the registry holds the calls that wait for their own factory, under
  their keys
-/

namespace PetaCore

open Run CacheSystem

/-! ## Reading versions -/

namespace VersionReads

@[simp] theorem get_empty (slot : NamespaceSlot) : empty.get slot = none := by
  cases slot with
  | global | server | entity => rfl

theorem get_set (reads : VersionReads) (slot : NamespaceSlot) (n : Nat) (slot' : NamespaceSlot) :
    (reads.set slot n).get slot' = if slot' = slot then some n else reads.get slot' := by
  cases slot with
  | global | server | entity => cases slot' with
    | global | server | entity => rfl

/-- The versions are there when each of them has been read. -/
theorem get_of_versions? {reads : VersionReads} {v : CacheNamespaceVersions}
    (h : reads.versions? = some v) (slot : NamespaceSlot) :
    reads.get slot = some (v.get slot) := by
  obtain ⟨g, sv, e⟩ := reads
  simp only [versions?] at h
  split at h
  · cases h
    cases slot with
    | global | server | entity => rfl
  · cases h

@[simp] theorem versions?_ofCaptured (captured : Option CacheNamespaceVersions) :
    (ofCaptured captured).versions? = captured := by
  cases captured with
  | none | some _ => rfl

theorem get_ofCaptured {captured : Option CacheNamespaceVersions} {slot : NamespaceSlot} {n : Nat}
    (h : (ofCaptured captured).get slot = some n) :
    ∃ v, captured = some v ∧ v.get slot = n := by
  cases captured with
  | none => simp [ofCaptured] at h
  | some v =>
    have hv := get_of_versions? (versions?_ofCaptured (some v)) slot
    exact ⟨v, rfl, Option.some.inj (hv.symm.trans h)⟩

end VersionReads

theorem CacheNamespaceVersions.ext_get {v w : CacheNamespaceVersions}
    (h : ∀ slot, v.get slot = w.get slot) : v = w := by
  obtain ⟨g, sv, e⟩ := v
  obtain ⟨g', sv', e'⟩ := w
  have hg : g = g' := h .global
  have hs : sv = sv' := h .server
  have he : e = e' := h .entity
  subst hg hs he
  rfl

/-! ## Background stores -/

/-- The versions under which a store may still write; there is nothing to write any more when
    only the counter is cleared. -/
def StorePhase.pendingReads : StorePhase → Option VersionReads
  | .record _ reads => some reads
  | .store reads => some reads
  | .clear _ => none

/-- The versions under which the background store of a call may still write its result. -/
def CacheCall.pendingReads (call : CacheCall) : Option VersionReads :=
  call.background.bind StorePhase.pendingReads

theorem startStore_pendingReads {env : CacheEnv} {r : CacheRequest}
    {captured : Option CacheNamespaceVersions} {result : Json} {n : Nat} {reads : VersionReads}
    (h : (startStore env r captured result n).bind StorePhase.pendingReads = some reads) :
    reads = .ofCaptured captured := by
  unfold startStore at h
  split at h
  · cases h
  · split at h
    · cases h
    · split at h
      · exact (Option.some.inj h).symm
      · exact (Option.some.inj h).symm

theorem afterRecord_pendingReads {policy : ResolvedCachePolicy}
    {captured : Option CacheNamespaceVersions} {roundsLeft count : Nat} {reads : VersionReads}
    (h : (afterRecord policy captured roundsLeft count).bind StorePhase.pendingReads =
      some reads) : reads = .ofCaptured captured := by
  unfold afterRecord at h
  split at h
  · split at h
    · exact (Option.some.inj h).symm
    · cases h
  · exact (Option.some.inj h).symm

/-! ## Effects -/

/-- The version that a call reads of one of its namespaces. -/
def CacheState.versionOf (env : CacheEnv) (s : CacheState) (r : CacheRequest)
    (slot : NamespaceSlot) : Nat :=
  s.getNamespaceVersion (r.namespaceKey env.sha256 env.config slot)

/-- How the background store of a call goes on: it starts over with the captured versions, or
    has read one more version, or has nothing left to write. -/
def BackgroundNext (env : CacheEnv) (s : CacheState) (call : CacheCall)
    (next : Option StorePhase) : Prop :=
  ∀ reads', next.bind StorePhase.pendingReads = some reads' →
    ∃ reads, call.pendingReads = some reads ∧
      (reads' = .ofCaptured call.lookupVersions ∨
        ∃ slot, reads.get slot = none ∧
          reads' = reads.set slot (s.versionOf env call.request slot))

/-- Everything that a step of the result cache can do. -/
inductive Effect (env : CacheEnv) (s : CacheState) : CacheAction → CacheState → Prop where
  | begin (r : CacheRequest) (phase : CallPhase) (hphase : phase = .looking ∨ phase = .looked) :
    Effect env s (.begin r) { s with
      clock := s.clock + 1
      calls := s.calls ++ [⟨r, s.clock, phase, .empty, none, none, none, none⟩] }
  | read (c : Nat) (slot : NamespaceSlot) (call : CacheCall) (hcall : s.calls[c]? = some call)
    (hphase : call.phase = .looking) (hslot : call.reads.get slot = none) :
    Effect env s (.readVersion c slot true) (s.setCall c
      { call with reads := call.reads.set slot (s.versionOf env call.request slot) })
  | readFailed (c : Nat) (slot : NamespaceSlot) (call : CacheCall)
    (hcall : s.calls[c]? = some call) (hphase : call.phase = .looking) :
    Effect env s (.readVersion c slot false)
      (s.setCall c { call with phase := .looked, reads := .empty })
  | hit (c : Nat) (call : CacheCall) (v : CacheNamespaceVersions) (scopeIdentity : String)
    (entry : CacheEntry) (hcall : s.calls[c]? = some call) (hphase : call.phase = .looking)
    (hreads : call.reads.versions? = some v)
    (hidentity : call.request.scopeIdentity = some scopeIdentity)
    (hentry : s.entries.get?
      (call.request.entryKey env.sha256 env.config scopeIdentity v) = some entry) :
    Effect env s (.getEntry c .answered) (s.setCall c
      { call with phase := .finished, source := some (.cached entry.producer) })
  | missed (c : Nat) (reply : GetReply) (call : CacheCall) (hcall : s.calls[c]? = some call)
    (hphase : call.phase = .looking) :
    Effect env s (.getEntry c reply) (s.setCall c { call with phase := .looked })
  | direct (c : Nat) (call : CacheCall) (hcall : s.calls[c]? = some call)
    (hphase : call.phase = .looked) (hidentity : call.request.scopeIdentity = none) :
    Effect env s (.enter c) (s.setCall c
      { call with phase := .direct, factoryAt := some s.clock, source := some .own })
  | join (c : Nat) (call : CacheCall) (scopeIdentity : String) (flight : Flight)
    (hcall : s.calls[c]? = some call) (hphase : call.phase = .looked)
    (hidentity : call.request.scopeIdentity = some scopeIdentity)
    (hflight : s.inflight.get? (singleflightKey env.sha256 call.request scopeIdentity
      call.lookupVersions) = some flight) :
    Effect env s (.enter c) { (s.setCall c { call with
        phase := .following flight.leader
        source := some (.coalesced flight.leader) }) with
      inflight := s.inflight.set
        (singleflightKey env.sha256 call.request scopeIdentity call.lookupVersions)
        ⟨flight.leader, flight.observerCount + 1⟩ }
  | lead (c : Nat) (call : CacheCall) (scopeIdentity : String)
    (hcall : s.calls[c]? = some call) (hphase : call.phase = .looked)
    (hidentity : call.request.scopeIdentity = some scopeIdentity)
    (hflight : s.inflight.get? (singleflightKey env.sha256 call.request scopeIdentity
      call.lookupVersions) = none) :
    Effect env s (.enter c) { (s.setCall c { call with
        phase := .leading
        factoryAt := some s.clock
        source := some .own }) with
      inflight := s.inflight.set
        (singleflightKey env.sha256 call.request scopeIdentity call.lookupVersions) ⟨c, 0⟩ }
  | settled (c : Nat) (outcome : Except String Json) (call : CacheCall) (phase : CallPhase)
    (hcall : s.calls[c]? = some call) (hsettled : call.settled = none)
    (hphase : (call.phase = .direct ∧ phase = .finished) ∨
      (call.phase = .leading ∧ phase = .leading)) :
    Effect env s (.settle c outcome)
      (s.setCall c { call with phase := phase, settled := some outcome })
  | released (c : Nat) (call : CacheCall) (scopeIdentity : String) (inflight : Dict Flight)
    (background : Option StorePhase) (hcall : s.calls[c]? = some call)
    (hphase : call.phase = .leading)
    (hidentity : call.request.scopeIdentity = some scopeIdentity)
    (hinflight : inflight =
      if (s.inflight.get? (singleflightKey env.sha256 call.request scopeIdentity
        call.lookupVersions)).map (·.leader) = some c then
        s.inflight.erase
          (singleflightKey env.sha256 call.request scopeIdentity call.lookupVersions)
      else s.inflight)
    (hbackground : ∀ reads, background.bind StorePhase.pendingReads = some reads →
      reads = .ofCaptured call.lookupVersions) :
    Effect env s (.release c) { (s.setCall c
        { call with phase := .finished, background := background }) with inflight := inflight }
  | resumed (c leader : Nat) (call : CacheCall) (hcall : s.calls[c]? = some call)
    (hphase : call.phase = .following leader) :
    Effect env s (.resume c) (s.setCall c { call with phase := .finished })
  | background (a : CacheAction) (c : Nat) (call : CacheCall) (next : Option StorePhase)
    (admissions : Dict Nat)
    (hcall : s.calls[c]? = some call) (hnext : BackgroundNext env s call next) :
    Effect env s a
      { (s.setCall c { call with background := next }) with admissions := admissions }
  | stored (c : Nat) (call : CacheCall) (reads : VersionReads) (v : CacheNamespaceVersions)
    (scopeIdentity : String) (result : Json) (next : Option StorePhase)
    (hcall : s.calls[c]? = some call)
    (hidentity : call.request.scopeIdentity = some scopeIdentity)
    (hpending : call.pendingReads = some reads) (hreads : reads.versions? = some v)
    (hnext : next.bind StorePhase.pendingReads = none) :
    Effect env s (.storeWrite c true) { (s.setCall c { call with background := next }) with
      entries := s.entries.set
        (call.request.entryKey env.sha256 env.config scopeIdentity v) ⟨result, c⟩ }
  | purge (target : PurgeTarget) (returnedAt : Option Nat)
    (hreturned : returnedAt = none ∨
      (returnedAt = some s.clock ∧ ∃ r, target = .exact r ∧ r.scopeIdentity = none)) :
    Effect env s (.purge target) { s with
      clock := s.clock + 1
      purges := s.purges ++ [⟨target, s.clock, .empty, none, false, false, false, returnedAt⟩] }
  | bumped (i : Nat) (p : PurgeRecord) (namespaceKey : String) (hp : s.purges[i]? = some p)
    (hkey : p.target.namespaceKey? env.sha256 env.config.keyPrefix = some namespaceKey)
    (hopen : p.isOpen = true) :
    Effect env s (.bump i true) { (s.setPurge i { p with
        bumpedTo := some (s.getNamespaceVersion namespaceKey + 1)
        returnedAt := some s.clock }) with
      versions := s.versions.set namespaceKey (s.getNamespaceVersion namespaceKey + 1) }
  | bumpFailed (i : Nat) (p : PurgeRecord) (hp : s.purges[i]? = some p) :
    Effect env s (.bump i false) (s.setPurge i { p with returnedAt := some s.clock })
  | purgeRead (i : Nat) (slot : NamespaceSlot) (p : PurgeRecord) (r : CacheRequest)
    (hp : s.purges[i]? = some p) (htarget : p.target = .exact r) (hopen : p.isOpen = true)
    (hslot : p.reads.get slot = none) :
    Effect env s (.purgeRead i slot true)
      (s.setPurge i { p with reads := p.reads.set slot (s.versionOf env r slot) })
  | purgeReadFailed (i : Nat) (slot : NamespaceSlot) (p : PurgeRecord)
    (hp : s.purges[i]? = some p) :
    Effect env s (.purgeRead i slot false) (s.setPurge i { p with returnedAt := some s.clock })
  | purgeDeleted (i : Nat) (p : PurgeRecord) (r : CacheRequest) (v : CacheNamespaceVersions)
    (scopeIdentity : String) (hp : s.purges[i]? = some p) (htarget : p.target = .exact r)
    (hidentity : r.scopeIdentity = some scopeIdentity) (hopen : p.isOpen = true)
    (hreads : p.reads.versions? = some v) :
    Effect env s (.purgeDelete i true) { (s.setPurge i
        ({ p with deleted := true }.finishExact s.clock)) with
      entries := s.entries.erase (r.entryKey env.sha256 env.config scopeIdentity v) }
  | purgeCleared (i : Nat) (p : PurgeRecord) (r : CacheRequest) (admissions : Dict Nat)
    (hp : s.purges[i]? = some p) (htarget : p.target = .exact r) (hopen : p.isOpen = true) :
    Effect env s (.purgeClear i true) { (s.setPurge i
        ({ p with cleared := true }.finishExact s.clock)) with admissions := admissions }
  | purgeFailed (a : CacheAction) (i : Nat) (p : PurgeRecord) (hp : s.purges[i]? = some p) :
    Effect env s a (s.setPurge i { p with failed := true })
  | expired (entryKey : String) :
    Effect env s (.expire entryKey)
      { s with clock := s.clock + 1, entries := s.entries.erase entryKey }
  | admissionExpired (admissionKey : String) :
    Effect env s (.expireAdmission admissionKey)
      { s with clock := s.clock + 1, admissions := s.admissions.erase admissionKey }

/-! ## Inversion -/

section

variable {c : Nat} {ok : Bool}

variable {env : CacheEnv} {s s' : CacheState}

theorem begin_effect {r : CacheRequest} (h : begin env s r = some s') :
    Effect env s (.begin r) s' := by
  simp only [begin, Option.some.injEq] at h
  subst h
  refine Effect.begin r _ ?_
  split
  · exact .inl rfl
  · exact .inr rfl

variable {slot : NamespaceSlot}

theorem readVersion_effect (h : readVersion env s c slot ok = some s') :
    Effect env s (.readVersion c slot ok) s' := by
  unfold readVersion at h
  split at h
  · cases h
  · rename_i call hcall
    split at h
    · rename_i hguard
      cases ok with
      | true =>
        cases h
        exact Effect.read c slot call hcall hguard.1 hguard.2
      | false =>
        cases h
        exact Effect.readFailed c slot call hcall hguard.1
    · cases h

theorem getEntry_effect {reply : GetReply} (h : getEntry env s c reply = some s') :
    Effect env s (.getEntry c reply) s' := by
  unfold getEntry at h
  split at h
  · cases h
  · rename_i call hcall
    split at h
    · rename_i v scopeIdentity hphase hreads hidentity
      simp only at h
      split at h
      · rename_i entry hentry
        cases h
        exact Effect.hit c call v scopeIdentity entry hcall hphase hreads hidentity hentry
      · cases h
        exact Effect.missed c _ call hcall hphase
    · cases h

theorem enter_effect (h : enter env s c = some s') : Effect env s (.enter c) s' := by
  unfold enter at h
  split at h
  · cases h
  · rename_i call hcall
    split at h
    · rename_i hphase
      split at h
      · rename_i hidentity
        cases h
        exact Effect.direct c call hcall hphase hidentity
      · rename_i scopeIdentity hidentity
        simp only at h
        split at h
        · rename_i flight hflight
          cases h
          exact Effect.join c call scopeIdentity flight hcall hphase hidentity hflight
        · rename_i hflight
          cases h
          exact Effect.lead c call scopeIdentity hcall hphase hidentity hflight
    · cases h

theorem settle_effect {outcome : Except String Json} (h : settle s c outcome = some s') :
    Effect env s (.settle c outcome) s' := by
  unfold settle at h
  split at h
  · cases h
  · rename_i call hcall
    split at h
    · rename_i hphase hsettled
      cases h
      exact Effect.settled c outcome call .finished hcall hsettled (.inl ⟨hphase, rfl⟩)
    · rename_i hphase hsettled
      cases h
      have heffect : Effect env s (.settle c outcome) _ :=
        Effect.settled c outcome call .leading hcall hsettled (.inr ⟨hphase, rfl⟩)
      rw [← hphase] at heffect
      exact heffect
    · cases h

theorem release_effect (h : release env s c = some s') : Effect env s (.release c) s' := by
  unfold release at h
  split at h
  · cases h
  · rename_i call hcall
    split at h
    · rename_i outcome scopeIdentity hphase hsettled hidentity
      cases h
      refine Effect.released c call scopeIdentity _ _ hcall hphase hidentity rfl ?_
      intro reads hreads
      cases outcome with
      | ok result => exact startStore_pendingReads hreads
      | error error => cases hreads
    · cases h

theorem resume_effect (h : resume s c = some s') : Effect env s (.resume c) s' := by
  unfold resume at h
  split at h
  · cases h
  · rename_i call hcall
    split at h
    · rename_i leader hphase
      split at h
      · split at h
        · cases h
          exact Effect.resumed c leader call hcall hphase
        · cases h
      · cases h
    · cases h

variable {call : CacheCall}

variable {a : CacheAction}

/-- A change of the background store that leaves the counters alone. -/
theorem Effect.of_background {next : Option StorePhase}
    (hcall : s.calls[c]? = some call) (hnext : BackgroundNext env s call next) :
    Effect env s a (s.setCall c { call with background := next }) :=
  Effect.background a c call next s.admissions hcall hnext

theorem backgroundNext_none (call : CacheCall) : BackgroundNext env s call none := by
  intro reads h
  cases h

theorem backgroundNext_read {phase phase' : StorePhase} {reads : VersionReads}
    (hphase : call.background = some phase)
    (hreads : ∀ r, phase'.pendingReads = some r → phase.pendingReads = some reads ∧
      r = reads.set slot (s.versionOf env call.request slot))
    (hslot : reads.get slot = none) : BackgroundNext env s call (some phase') := by
  intro reads' h
  obtain ⟨hold, rfl⟩ := hreads reads' h
  refine ⟨reads, ?_, .inr ⟨slot, hslot, rfl⟩⟩
  rw [CacheCall.pendingReads, hphase]
  exact hold

theorem backgroundNext_afterRecord {roundsLeft rounds count : Nat}
    {reads : VersionReads} (hphase : call.background = some (.record roundsLeft reads)) :
    BackgroundNext env s call
      (afterRecord call.request.policy call.lookupVersions rounds count) := by
  intro reads' h
  refine ⟨reads, ?_, .inl (afterRecord_pendingReads h)⟩
  rw [CacheCall.pendingReads, hphase]
  rfl

theorem storeRead_effect (h : storeRead env s c slot ok = some s') :
    Effect env s (.storeRead c slot ok) s' := by
  unfold storeRead at h
  split at h
  · cases h
  · rename_i call hcall
    simp only at h
    split at h
    · cases h
    · rename_i roundsLeft reads hphase
      split at h
      · rename_i hslot
        cases h
        refine Effect.of_background hcall ?_
        cases ok with
        | true =>
          refine backgroundNext_read hphase ?_ hslot
          intro r hr
          exact ⟨rfl, (Option.some.inj hr).symm⟩
        | false => exact backgroundNext_afterRecord hphase
      · cases h
    · rename_i reads hphase
      split at h
      · rename_i hslot
        cases h
        refine Effect.of_background hcall ?_
        cases ok with
        | true =>
          refine backgroundNext_read hphase ?_ hslot
          intro r hr
          exact ⟨rfl, (Option.some.inj hr).symm⟩
        | false => exact backgroundNext_none call
      · cases h
    · rename_i reads hphase
      split at h
      · rename_i hslot
        cases h
        refine Effect.of_background hcall ?_
        cases ok with
        | true =>
          refine backgroundNext_read hphase ?_ hslot
          intro r hr
          cases hr
        | false => exact backgroundNext_none call
      · cases h

theorem storeWrite_effect (h : storeWrite env s c ok = some s') :
    Effect env s (.storeWrite c ok) s' := by
  unfold storeWrite at h
  split at h
  · cases h
  · rename_i call hcall
    split at h
    · rename_i scopeIdentity roundsLeft reads hidentity hphase
      split at h
      · cases h
      · cases h
        exact Effect.background _ c call _ _ hcall (backgroundNext_afterRecord hphase)
    · rename_i scopeIdentity reads hidentity hphase
      split at h
      · rename_i v result hreads hsettled
        simp only at h
        have hpending : call.pendingReads = some reads := by
          rw [CacheCall.pendingReads, hphase]
          rfl
        split at h
        · rename_i hok
          cases h
          rw [Bool.and_eq_true] at hok
          rw [hok.1]
          refine Effect.stored c call reads v scopeIdentity result _ hcall hidentity hpending
            hreads ?_
          split
          · rfl
          · rfl
        · cases h
          exact Effect.of_background hcall (backgroundNext_none call)
      · cases h
    · split at h
      · cases h
      · cases h
        exact Effect.background _ c call _ _ hcall (backgroundNext_none call)
    · cases h

theorem purge_effect {target : PurgeTarget} (h : purge s target = some s') :
    Effect env s (.purge target) s' := by
  simp only [purge, Option.some.injEq] at h
  subst h
  refine Effect.purge target _ ?_
  split
  · rename_i r
    split
    · rename_i hidentity
      exact .inr ⟨rfl, r, rfl, hidentity⟩
    · exact .inl rfl
  · exact .inl rfl

variable {i : Nat}

theorem bump_effect (h : bump env s i ok = some s') : Effect env s (.bump i ok) s' := by
  unfold bump at h
  split at h
  · cases h
  · rename_i p hp
    split at h
    · cases h
    · rename_i namespaceKey hkey
      split at h
      · rename_i hopen
        cases ok with
        | true =>
          cases h
          exact Effect.bumped i p namespaceKey hp hkey hopen
        | false =>
          cases h
          exact Effect.bumpFailed i p hp
      · cases h

theorem purgeRead_effect (h : purgeRead env s i slot ok = some s') :
    Effect env s (.purgeRead i slot ok) s' := by
  unfold purgeRead at h
  split at h
  · cases h
  · rename_i p hp
    split at h
    · rename_i r htarget
      split at h
      · rename_i hguard
        cases ok with
        | true =>
          cases h
          exact Effect.purgeRead i slot p r hp htarget hguard.1 hguard.2
        | false =>
          cases h
          exact Effect.purgeReadFailed i slot p hp
      · cases h
    · cases h

theorem purgeDelete_effect (h : purgeDelete env s i ok = some s') :
    Effect env s (.purgeDelete i ok) s' := by
  unfold purgeDelete at h
  split at h
  · cases h
  · rename_i p hp
    split at h
    · rename_i r htarget
      split at h
      · rename_i v scopeIdentity hreads hidentity
        split at h
        · rename_i hguard
          cases ok with
          | true =>
            cases h
            exact Effect.purgeDeleted i p r v scopeIdentity hp htarget hidentity hguard.1 hreads
          | false =>
            cases h
            exact Effect.purgeFailed _ i p hp
        · cases h
      · cases h
    · cases h

theorem purgeClear_effect (h : purgeClear env s i ok = some s') :
    Effect env s (.purgeClear i ok) s' := by
  unfold purgeClear at h
  split at h
  · cases h
  · rename_i p hp
    split at h
    · rename_i r htarget
      split at h
      · split at h
        · rename_i hguard
          cases ok with
          | true =>
            cases h
            exact Effect.purgeCleared i p r _ hp htarget hguard.1
          | false =>
            cases h
            exact Effect.purgeFailed _ i p hp
        · cases h
      · cases h
    · cases h

/-- A step has one of the effects. -/
theorem step_effect (h : step env s a = some s') : Effect env s a s' := by
  cases a with
  | begin r => exact begin_effect h
  | readVersion c slot ok => exact readVersion_effect h
  | getEntry c reply => exact getEntry_effect h
  | enter c => exact enter_effect h
  | settle c outcome => exact settle_effect h
  | release c => exact release_effect h
  | resume c => exact resume_effect h
  | storeRead c slot ok => exact storeRead_effect h
  | storeWrite c ok => exact storeWrite_effect h
  | purge target => exact purge_effect h
  | bump i ok => exact bump_effect h
  | purgeRead i slot ok => exact purgeRead_effect h
  | purgeDelete i ok => exact purgeDelete_effect h
  | purgeClear i ok => exact purgeClear_effect h
  | expire key =>
    cases h
    exact Effect.expired key
  | expireAdmission key =>
    cases h
    exact Effect.admissionExpired key

/-! ## Calls and purges by their place -/

theorem getElem?_set_iff {α : Type} {l : List α} {a : α} (h : l[i]? = some a) (x : α)
    (j : Nat) (y : α) :
    (l.set i x)[j]? = some y ↔ (j = i ∧ x = y) ∨ (j ≠ i ∧ l[j]? = some y) := by
  have hlt : i < l.length := (List.getElem?_eq_some_iff.mp h).1
  by_cases hj : j = i
  · subst hj
    simp [List.getElem?_set_self hlt]
  · rw [List.getElem?_set_ne (Ne.symm hj)]
    simp [hj]

/-! ## The registry -/

/-- The registry holds the calls that wait for their own factory, under their keys. -/
structure FlightsOk (env : CacheEnv) (s : CacheState) : Prop where
  leads : ∀ key flight, s.inflight.get? key = some flight →
    ∃ call scopeIdentity, s.calls[flight.leader]? = some call ∧ call.phase = .leading ∧
      call.request.scopeIdentity = some scopeIdentity ∧
      key = singleflightKey env.sha256 call.request scopeIdentity call.lookupVersions
  registered : ∀ (c : Nat) (call : CacheCall) (scopeIdentity : String), s.calls[c]? = some call →
    call.phase = .leading → call.request.scopeIdentity = some scopeIdentity →
    ∃ n, s.inflight.get?
      (singleflightKey env.sha256 call.request scopeIdentity call.lookupVersions) = some ⟨c, n⟩

theorem FlightsOk.init (env : CacheEnv) : FlightsOk env .init where
  leads := by
    intro key flight h
    cases h
  registered := by
    intro c call scopeIdentity h
    cases h

variable {call' : CacheCall}

/-- The registry is not concerned by a change of a call that keeps leaders as they are. -/
theorem FlightsOk.setCall (h : FlightsOk env s)
    (hcall : s.calls[c]? = some call) (hinflight : s'.inflight = s.inflight)
    (hcalls : s'.calls = s.calls.set c call') (hrequest : call'.request = call.request)
    (hphase : call'.phase = .leading ↔ call.phase = .leading)
    (hreads : call.phase = .leading → call'.reads = call.reads) : FlightsOk env s' where
  leads := by
    intro key flight hflight
    rw [hinflight] at hflight
    obtain ⟨lead, scopeIdentity, hlead, hleading, hidentity, hkey⟩ := h.leads key flight hflight
    by_cases hc : flight.leader = c
    · rw [hc, hcall] at hlead
      cases hlead
      refine ⟨call', scopeIdentity, ?_, hphase.mpr hleading, by rw [hrequest]; exact hidentity, ?_⟩
      · rw [hcalls, getElem?_set_iff hcall]
        exact .inl ⟨hc, rfl⟩
      · rw [hkey, hrequest, CacheCall.lookupVersions, CacheCall.lookupVersions, hreads hleading]
    · refine ⟨lead, scopeIdentity, ?_, hleading, hidentity, hkey⟩
      rw [hcalls, getElem?_set_iff hcall]
      exact .inr ⟨hc, hlead⟩
  registered := by
    intro i lead scopeIdentity hlead hleading hidentity
    rw [hcalls, getElem?_set_iff hcall] at hlead
    rw [hinflight]
    cases hlead with
    | inl hlead =>
      obtain ⟨rfl, rfl⟩ := hlead
      have hold := hphase.mp hleading
      rw [hrequest] at hidentity ⊢
      rw [CacheCall.lookupVersions, hreads hold]
      exact h.registered i call scopeIdentity hcall hold hidentity
    | inr hlead => exact h.registered i lead scopeIdentity hlead.2 hleading hidentity

/-- A step that leaves calls and registry alone keeps the registry in order. -/
theorem FlightsOk.of_eq (h : FlightsOk env s) (hinflight : s'.inflight = s.inflight)
    (hcalls : s'.calls = s.calls) : FlightsOk env s' where
  leads := by
    rw [hinflight, hcalls]
    exact h.leads
  registered := by
    rw [hinflight, hcalls]
    exact h.registered

theorem FlightsOk.begin (h : FlightsOk env s) (call : CacheCall) (hphase : call.phase ≠ .leading)
    (hinflight : s'.inflight = s.inflight) (hcalls : s'.calls = s.calls ++ [call]) :
    FlightsOk env s' where
  leads := by
    intro key flight hflight
    rw [hinflight] at hflight
    obtain ⟨lead, scopeIdentity, hlead, hrest⟩ := h.leads key flight hflight
    refine ⟨lead, scopeIdentity, ?_, hrest⟩
    rw [hcalls, getElem?_snoc]
    exact .inl hlead
  registered := by
    intro i lead scopeIdentity hlead hleading hidentity
    rw [hcalls, getElem?_snoc] at hlead
    rw [hinflight]
    cases hlead with
    | inl hlead => exact h.registered i lead scopeIdentity hlead hleading hidentity
    | inr hlead =>
      obtain ⟨_, rfl⟩ := hlead
      exact absurd hleading hphase

theorem FlightsOk.join (h : FlightsOk env s) {key : String}
    {flight : Flight} (hcall : s.calls[c]? = some call) (hphase : call.phase ≠ .leading)
    (hphase' : call'.phase ≠ .leading) (hflight : s.inflight.get? key = some flight)
    (hcalls : s'.calls = s.calls.set c call')
    (hinflight : s'.inflight = s.inflight.set key ⟨flight.leader, flight.observerCount + 1⟩) :
    FlightsOk env s' where
  leads := by
    intro key' flight' hflight'
    have hold : ∃ old, s.inflight.get? key' = some old ∧ old.leader = flight'.leader := by
      rw [hinflight, Dict.get?_set] at hflight'
      split at hflight'
      · rename_i hkey
        cases hflight'
        exact ⟨flight, by rw [hkey]; exact hflight, rfl⟩
      · exact ⟨flight', hflight', rfl⟩
    obtain ⟨old, hget, hleader⟩ := hold
    obtain ⟨lead, scopeIdentity, hlead, hleading, hrest⟩ := h.leads key' old hget
    rw [hleader] at hlead
    refine ⟨lead, scopeIdentity, ?_, hleading, hrest⟩
    rw [hcalls, getElem?_set_iff hcall]
    refine .inr ⟨?_, hlead⟩
    intro hc
    rw [hc, hcall] at hlead
    cases hlead
    exact hphase hleading
  registered := by
    intro i lead scopeIdentity hlead hleading hidentity
    rw [hcalls, getElem?_set_iff hcall] at hlead
    cases hlead with
    | inl hlead =>
      obtain ⟨_, rfl⟩ := hlead
      exact absurd hleading hphase'
    | inr hlead =>
      obtain ⟨n, hn⟩ := h.registered i lead scopeIdentity hlead.2 hleading hidentity
      rw [hinflight, Dict.get?_set]
      split
      · rename_i hkey
        rw [hkey, hflight] at hn
        cases hn
        exact ⟨n + 1, rfl⟩
      · exact ⟨n, hn⟩

theorem FlightsOk.lead (h : FlightsOk env s) {c : Nat} (call' : CacheCall)
    {scopeIdentity : String} (hcall : s.calls[c]? = some call) (hphase : call.phase ≠ .leading)
    (hphase' : call'.phase = .leading)
    (hidentity : call'.request.scopeIdentity = some scopeIdentity)
    (hflight : s.inflight.get? (singleflightKey env.sha256 call'.request scopeIdentity
      call'.lookupVersions) = none) (hcalls : s'.calls = s.calls.set c call')
    (hinflight : s'.inflight = s.inflight.set (singleflightKey env.sha256 call'.request
      scopeIdentity call'.lookupVersions) ⟨c, 0⟩) : FlightsOk env s' where
  leads := by
    intro key flight hget
    rw [hinflight, Dict.get?_set] at hget
    rw [hcalls]
    split at hget
    · rename_i hkey
      cases hget
      refine ⟨call', scopeIdentity, ?_, hphase', hidentity, hkey⟩
      rw [getElem?_set_iff hcall]
      exact .inl ⟨rfl, rfl⟩
    · obtain ⟨lead, i, hlead, hleading, hrest⟩ := h.leads key flight hget
      refine ⟨lead, i, ?_, hleading, hrest⟩
      rw [getElem?_set_iff hcall]
      refine .inr ⟨?_, hlead⟩
      intro hc
      rw [hc, hcall] at hlead
      cases hlead
      exact hphase hleading
  registered := by
    intro i lead scopeIdentity' hlead hleading hidentity'
    rw [hcalls, getElem?_set_iff hcall] at hlead
    rw [hinflight, Dict.get?_set]
    cases hlead with
    | inl hlead =>
      obtain ⟨rfl, rfl⟩ := hlead
      obtain rfl := Option.some.inj (hidentity.symm.trans hidentity')
      rw [if_pos rfl]
      exact ⟨0, rfl⟩
    | inr hlead =>
      obtain ⟨n, hn⟩ := h.registered i lead scopeIdentity' hlead.2 hleading hidentity'
      rw [if_neg]
      · exact ⟨n, hn⟩
      · intro hkey
        rw [hkey, hflight] at hn
        cases hn

theorem FlightsOk.release (h : FlightsOk env s) {scopeIdentity : String}
    (hcall : s.calls[c]? = some call) (hphase : call.phase = .leading)
    (hphase' : call'.phase ≠ .leading) (hidentity : call.request.scopeIdentity = some scopeIdentity)
    (hcalls : s'.calls = s.calls.set c call')
    (hinflight : s'.inflight = if (s.inflight.get? (singleflightKey env.sha256 call.request
      scopeIdentity call.lookupVersions)).map (·.leader) = some c then
        s.inflight.erase
          (singleflightKey env.sha256 call.request scopeIdentity call.lookupVersions)
      else s.inflight) : FlightsOk env s' := by
  -- the flight of a leader is its own, so it is removed
  obtain ⟨n, hn⟩ := h.registered c call scopeIdentity hcall hphase hidentity
  rw [hn, Option.map_some, if_pos rfl] at hinflight
  refine ⟨?_, ?_⟩
  · intro key flight hget
    rw [hinflight, Dict.get?_erase] at hget
    split at hget
    · cases hget
    · rename_i hne
      obtain ⟨lead, i, hlead, hleading, hi, hkey⟩ := h.leads key flight hget
      refine ⟨lead, i, ?_, hleading, hi, hkey⟩
      rw [hcalls, getElem?_set_iff hcall]
      refine .inr ⟨?_, hlead⟩
      intro hc
      rw [hc, hcall] at hlead
      cases hlead
      obtain rfl := Option.some.inj (hi.symm.trans hidentity)
      exact hne hkey
  · intro i lead scopeIdentity' hlead hleading hidentity'
    rw [hcalls, getElem?_set_iff hcall] at hlead
    cases hlead with
    | inl hlead =>
      obtain ⟨_, rfl⟩ := hlead
      exact absurd hleading hphase'
    | inr hlead =>
      obtain ⟨n', hn'⟩ := h.registered i lead scopeIdentity' hlead.2 hleading hidentity'
      refine ⟨n', ?_⟩
      rw [hinflight, Dict.get?_erase, if_neg]
      · exact hn'
      · intro hkey
        rw [hkey, hn] at hn'
        exact hlead.1 (congrArg Flight.leader (Option.some.inj hn')).symm

/-- Every step keeps the registry in order. -/
theorem FlightsOk.step (h : FlightsOk env s)
    (hstep : CacheSystem.step env s a = some s') : FlightsOk env s' := by
  cases step_effect hstep with
  | begin r phase hphase =>
    refine h.begin ⟨r, s.clock, phase, .empty, none, none, none, none⟩ ?_ rfl rfl
    cases hphase with
    | inl hphase | inr hphase => simp [hphase]
  | read c slot call hcall hphase hslot =>
    refine h.setCall hcall rfl rfl rfl (by simp) ?_
    simp [hphase]
  | readFailed c slot call hcall hphase =>
    exact h.setCall hcall rfl rfl rfl (by simp [hphase]) (by simp [hphase])
  | hit _ _ _ _ _ hcall hphase _ _ _ | missed _ _ _ hcall hphase | direct _ _ hcall hphase _
  | resumed _ _ _ hcall hphase =>
    exact h.setCall hcall rfl rfl rfl (by simp [hphase]) (by simp)
  | join c call scopeIdentity flight hcall hphase hidentity hflight =>
    exact h.join hcall (by simp [hphase]) (by simp) hflight rfl rfl
  | lead c call scopeIdentity hcall hphase hidentity hflight =>
    exact h.lead { call with
      phase := .leading
      factoryAt := some s.clock
      source := some .own } hcall (by simp [hphase]) rfl hidentity hflight rfl rfl
  | settled c outcome call phase hcall hsettled hphase =>
    refine h.setCall hcall rfl rfl rfl ?_ (by simp)
    cases hphase with
    | inl hphase | inr hphase => simp [hphase.1, hphase.2]
  | released c call scopeIdentity inflight background hcall hphase hidentity hinflight =>
    exact h.release hcall hphase (by simp) hidentity rfl hinflight
  | background _ _ _ _ _ hcall _ | stored _ _ _ _ _ _ _ hcall =>
    exact h.setCall hcall rfl rfl rfl Iff.rfl (fun _ => rfl)
  | purge | bumped | bumpFailed | purgeRead | purgeReadFailed | purgeDeleted | purgeCleared
  | purgeFailed | expired | admissionExpired => exact h.of_eq rfl rfl

theorem FlightsOk.of_run {trs : List (Transition CacheState CacheAction)} {t : CacheState}
    (hrun : IsRun (CacheSystem.step env) .init trs t) : FlightsOk env t :=
  hrun.invariant (fun _ _ _ h hstep => h.step hstep) (FlightsOk.init env)

end

end PetaCore
