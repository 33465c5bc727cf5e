import PetaCore.Spec.CacheKeyBuilder
import PetaCore.Spec.ResultCacheService

/-!
# Which calls share a flight

The key of a flight can be read from both ends: it determines the operation, the hash of the
parameters and the versions. What stands between them, the server id, the entity id and the
scope identity, is joined by colons without being hashed, and the scope type is not part of it.

## Key results

- `singleflightKey_eq_iff`: when two calls have the same key
- `coalesced_only_with_same_identity_iff`: when a call that enters while another is in flight
  can only get a result of its own identity
- `leader_iff`: the calls that are registered
-/

namespace PetaCore

open Run CacheSystem Segments

/-! ## Keys -/

/-- The part of the key that is not hashed. -/
def flightText (r : CacheRequest) (scopeIdentity : String) : String :=
  r.serverId ++ ":" ++ r.entityId ++ ":" ++ scopeIdentity

/-- The text that is hashed for the parameters of a request. -/
def CacheRequest.canonical (r : CacheRequest) : String :=
  canonicalParams r.requestParams r.policy.denyFields r.policy.allowFields

/-- Versions that are printed in digits, as numbers below 10²¹ are. -/
def CacheNamespaceVersions.Plain (v : CacheNamespaceVersions) : Prop :=
  ∀ slot, v.get slot < 10 ^ 21

/-- The segments of `versionSuffix`. -/
def suffixSegments : Option CacheNamespaceVersions → List (List Char)
  | none => []
  | some v =>
    [(toString v.globalVersion).toList, (toString v.serverVersion).toList,
      (toString v.entityVersion).toList]

theorem notMem_suffixSegments (lv : Option CacheNamespaceVersions) :
    ∀ s ∈ suffixSegments lv, ':' ∉ s := by
  intro s hs
  cases lv with
  | none => cases hs
  | some v =>
    simp only [suffixSegments, List.mem_cons, List.not_mem_nil, or_false] at hs
    rcases hs with rfl | rfl | rfl
    all_goals exact Nat.notMem_toString (by decide) _

theorem suffixSegments_inj {lv lv' : Option CacheNamespaceVersions}
    (h : suffixSegments lv = suffixSegments lv') : lv = lv' := by
  cases lv with
  | none =>
    cases lv' with
    | none => rfl
    | some v' => cases h
  | some v =>
    cases lv' with
    | none => cases h
    | some v' =>
      obtain ⟨g, sv, e⟩ := v
      obtain ⟨g', sv', e'⟩ := v'
      simp only [suffixSegments, List.cons.injEq, and_true, String.toList_inj] at h
      obtain rfl := Nat.toString_inj h.1
      obtain rfl := Nat.toString_inj h.2.1
      obtain rfl := Nat.toString_inj h.2.2
      rfl

theorem toList_versionSuffix_some (v : CacheNamespaceVersions) :
    (versionSuffix (some v)).toList = ':' :: ((toString v.globalVersion).toList ++
      ':' :: ((toString v.serverVersion).toList ++ ':' :: (toString v.entityVersion).toList)) := by
  have hcolon : ":".toList = [':'] := by decide
  unfold versionSuffix
  simp only
  rw [String.toList_append_sep _ ":" _ [':'] (by decide),
    String.toList_append_sep _ ":" _ [':'] (by decide), String.toList_append]
  simp only [hcolon, List.append_assoc, List.cons_append, List.nil_append]

/-- A key as its head, the hash and the versions. -/
theorem toList_singleflightKey (sha256 : String → String) (r : CacheRequest)
    (scopeIdentity : String) (lv : Option CacheNamespaceVersions) :
    (singleflightKey sha256 r scopeIdentity lv).toList =
      joinSegments ':' ("sf:".toList ++ (r.operation.value.toList ++
        ':' :: (flightText r scopeIdentity).toList))
        ((r.requestHash sha256).toList :: suffixSegments lv) := by
  have htext : (flightText r scopeIdentity).toList =
      r.serverId.toList ++ ':' :: (r.entityId.toList ++ ':' :: scopeIdentity.toList) := by
    unfold flightText
    rw [String.toList_append_sep _ ":" _ [':'] (by decide),
      String.toList_append_sep _ ":" _ [':'] (by decide)]
    simp only [List.append_assoc, List.cons_append, List.nil_append]
  unfold singleflightKey
  rw [String.toList_append, String.toList_append_sep _ ":" _ [':'] (by decide),
    String.toList_append_sep _ ":" _ [':'] (by decide),
    String.toList_append_sep _ ":" _ [':'] (by decide),
    String.toList_append_sep _ ":" _ [':'] (by decide), String.toList_append, htext]
  cases lv with
  | none =>
    simp only [versionSuffix, suffixSegments, joinSegments, List.foldl_cons, List.foldl_nil,
      String.toList_empty, List.append_assoc, List.cons_append, List.nil_append, List.append_nil]
  | some v =>
    rw [toList_versionSuffix_some]
    simp only [suffixSegments, joinSegments, List.foldl_cons, List.foldl_nil,
      List.append_assoc, List.cons_append, List.nil_append]

/-- A digest is longer than a printed version. -/
theorem digest_ne_version {d : String} (hd : isDigest d = true) {n : Nat} (hn : n < 10 ^ 21) :
    d.toList ≠ (toString n).toList := by
  intro h
  have hlen : (Nat.repr n).length ≤ 21 := (Nat.length_repr_le_iff (by decide)).mpr hn
  have hd64 : d.length = 64 := by
    simp only [isDigest, Bool.and_eq_true, beq_iff_eq] at hd
    exact hd.1
  have heq : d = Nat.repr n := String.toList_inj.mp h
  rw [heq] at hd64
  omega

/-- A key with versions is not one without. -/
theorem joinSegments_suffix_ne {d d' : String} (hd : isDigest d = true)
    {head head' : List Char} {v : CacheNamespaceVersions} (hv : v.Plain) :
    joinSegments ':' head (d.toList :: suffixSegments none) ≠
      joinSegments ':' head' (d'.toList :: suffixSegments (some v)) := by
  intro h
  simp only [suffixSegments, joinSegments, List.foldl_cons, List.foldl_nil] at h
  have hlast := (append_sep_inj_right (notMem_of_isDigest hd)
    (Nat.notMem_toString (by decide) v.entityVersion) h).2
  exact digest_ne_version hd (hv .entity) hlast

section

variable {sha256 : String → String} {r r' : CacheRequest} {i i' : String}
  {lv lv' : Option CacheNamespaceVersions}

/-- Two calls have the same key exactly when they agree on the operation, the text in the
    middle, the hash and the versions. -/
theorem singleflightKey_eq_iff (hd : isDigest (r.requestHash sha256) = true)
    (hd' : isDigest (r'.requestHash sha256) = true) (hv : ∀ v, lv = some v → v.Plain)
    (hv' : ∀ v, lv' = some v → v.Plain) :
    singleflightKey sha256 r i lv = singleflightKey sha256 r' i' lv' ↔
      r.operation = r'.operation ∧ flightText r i = flightText r' i' ∧
        r.requestHash sha256 = r'.requestHash sha256 ∧ lv = lv' := by
  constructor
  · intro h
    have hlist := congrArg String.toList h
    rw [toList_singleflightKey, toList_singleflightKey] at hlist
    -- both keys have versions or neither has
    have hlen : (suffixSegments lv).length = (suffixSegments lv').length := by
      cases lv with
      | none =>
        cases lv' with
        | none => rfl
        | some v' => exact absurd hlist (joinSegments_suffix_ne hd (hv' v' rfl))
      | some v =>
        cases lv' with
        | none => exact absurd hlist.symm (joinSegments_suffix_ne hd' (hv v rfl))
        | some v' => rfl
    have hsegments : ∀ (d : String) (lv : Option CacheNamespaceVersions), isDigest d = true →
        ∀ s ∈ d.toList :: suffixSegments lv, ':' ∉ s := by
      intro d lv hdigest s hs
      cases List.mem_cons.mp hs with
      | inl hs =>
        rw [hs]
        exact notMem_of_isDigest hdigest
      | inr hs => exact notMem_suffixSegments lv s hs
    obtain ⟨hhead, htail⟩ := joinSegments_inj (by simpa using hlen) (hsegments _ lv hd)
      (hsegments _ lv' hd') hlist
    have hop : ∀ o : CacheOperationType, ':' ∉ o.value.toList := by
      intro o
      cases o <;> decide
    obtain ⟨hoperation, htext⟩ :=
      append_sep_inj (hop _) (hop _) (List.append_cancel_left hhead)
    obtain ⟨hhash, hsuffix⟩ := List.cons.inj htail
    exact ⟨CacheOperationType.value_inj (String.toList_inj.mp hoperation),
      String.toList_inj.mp htext, String.toList_inj.mp hhash, suffixSegments_inj hsuffix⟩
  · intro h
    obtain ⟨hoperation, htext, hhash, rfl⟩ := h
    apply String.toList_inj.mp
    rw [toList_singleflightKey, toList_singleflightKey, hoperation, htext, hhash]

end

/-! ## Concurrent calls -/

/-- What a call asks for: with the same identity, two calls may share a result. -/
structure SameIdentity (a b : CacheCall) : Prop where
  operation : a.request.operation = b.request.operation
  serverId : a.request.serverId = b.request.serverId
  entityId : a.request.entityId = b.request.entityId
  scopeType : a.request.policy.scope = b.request.policy.scope
  scopeIdentity : a.request.scopeIdentity = b.request.scopeIdentity
  canonical : a.request.canonical = b.request.canonical
  versions : a.lookupVersions = b.lookupVersions

/-- Call `c` is about to look for a flight while call `d` is in flight. The hash of the
    parameters is a digest and tells the two apart when they differ. -/
structure Concurrent (env : CacheEnv) (s : CacheState) (c d : Nat) (second first : CacheCall)
    (i j : String) : Prop where
  entering : s.calls[c]? = some second
  looked : second.phase = .looked
  secondIdentity : second.request.scopeIdentity = some i
  inFlight : s.calls[d]? = some first
  leading : first.phase = .leading
  firstIdentity : first.request.scopeIdentity = some j
  secondDigest : isDigest (second.request.requestHash env.sha256) = true
  firstDigest : isDigest (first.request.requestHash env.sha256) = true
  injective : second.request.requestHash env.sha256 = first.request.requestHash env.sha256 →
    second.request.canonical = first.request.canonical
  secondPlain : ∀ v, second.lookupVersions = some v → v.Plain
  firstPlain : ∀ v, first.lookupVersions = some v → v.Plain

/-- The second call gets the result of the first one only if both ask for the same. -/
def CoalescesOnlySame (env : CacheEnv) (s : CacheState) (c d : Nat) (second first : CacheCall) :
    Prop :=
  ∀ s' after, step env s (.enter c) = some s' → s'.calls[c]? = some after →
    after.source = some (.coalesced d) → SameIdentity second first

/-- Two calls that agree on operation, parameters and versions, and on the joined text of
    server id, entity id and scope identity, have it from the same three parts, in a scope of the
    same type. -/
def SplitAlike (second first : CacheCall) (i j : String) : Prop :=
  second.request.operation = first.request.operation →
  second.request.canonical = first.request.canonical →
  second.lookupVersions = first.lookupVersions →
  flightText second.request i = flightText first.request j →
  second.request.serverId = first.request.serverId ∧
    second.request.entityId = first.request.entityId ∧ i = j ∧
    second.request.policy.scope = first.request.policy.scope

section

variable {env : CacheEnv} {s : CacheState} {c d : Nat} {second first : CacheCall} {i j : String}

/-- A call joins the flight of another one exactly when they have the same key. -/
theorem enter_coalesces_iff (hflights : FlightsOk env s)
    (h : Concurrent env s c d second first i j) :
    (∃ s' after, step env s (.enter c) = some s' ∧ s'.calls[c]? = some after ∧
      after.source = some (.coalesced d)) ↔
    singleflightKey env.sha256 second.request i second.lookupVersions =
      singleflightKey env.sha256 first.request j first.lookupVersions := by
  obtain ⟨n, hfirst⟩ := hflights.registered d first j h.inFlight h.leading h.firstIdentity
  have hlt : c < s.calls.length := (List.getElem?_eq_some_iff.mp h.entering).1
  cases hget : s.inflight.get?
      (singleflightKey env.sha256 second.request i second.lookupVersions) with
  | none =>
    -- the second call starts a flight of its own
    constructor
    · intro hex
      obtain ⟨s', after, hstep, hafter, hsource⟩ := hex
      simp only [step, enter, h.entering, h.looked, h.secondIdentity, hget, if_true,
        Option.some.injEq] at hstep
      subst hstep
      simp only [CacheState.setCall, List.getElem?_set_self hlt, Option.some.injEq] at hafter
      subst hafter
      cases hsource
    · intro hkey
      rw [hkey, hfirst] at hget
      cases hget
  | some flight =>
    have hstep : step env s (.enter c) = some { (s.setCall c { second with
          phase := .following flight.leader
          source := some (.coalesced flight.leader) }) with
        inflight := s.inflight.set
          (singleflightKey env.sha256 second.request i second.lookupVersions)
          ⟨flight.leader, flight.observerCount + 1⟩ } := by
      simp only [step, enter, h.entering, h.looked, h.secondIdentity, hget, if_true]
    constructor
    · intro hex
      obtain ⟨s', after, hstep', hafter, hsource⟩ := hex
      obtain rfl := Option.some.inj (hstep.symm.trans hstep')
      simp only [CacheState.setCall, List.getElem?_set_self hlt, Option.some.injEq] at hafter
      subst hafter
      -- the leader of the flight that was found is `d`, which is registered under its own key
      obtain ⟨call, i', hcall, hleading, hidentity, hkey⟩ := hflights.leads _ flight hget
      simp only [Option.some.injEq, ResultSource.coalesced.injEq] at hsource
      rw [hsource, h.inFlight] at hcall
      cases hcall
      obtain rfl := Option.some.inj (hidentity.symm.trans h.firstIdentity)
      exact hkey
    · intro hkey
      rw [hkey, hfirst] at hget
      cases hget
      refine ⟨_, { second with
        phase := .following d
        source := some (.coalesced d) }, hstep, ?_, rfl⟩
      simp only [CacheState.setCall, List.getElem?_set_self hlt]

/-- In every run: a call that enters while another is in flight gets the other's result only
    for the same operation, server, entity, scope, parameters and versions, exactly when the
    joined text in the middle of the two keys is not the same by a different split or in a
    scope of a different type. -/
theorem coalesced_only_with_same_identity_iff {trs : List (Transition CacheState CacheAction)}
    (hrun : IsRun (step env) .init trs s) (h : Concurrent env s c d second first i j) :
    CoalescesOnlySame env s c d second first ↔ SplitAlike second first i j := by
  have hjoins := enter_coalesces_iff (FlightsOk.of_run hrun) h
  rw [singleflightKey_eq_iff h.secondDigest h.firstDigest h.secondPlain h.firstPlain] at hjoins
  constructor
  · intro hsame hoperation hcanonical hversions htext
    have hhash : second.request.requestHash env.sha256 = first.request.requestHash env.sha256 :=
      congrArg env.sha256 hcanonical
    obtain ⟨s', after, hstep, hafter, hsource⟩ :=
      hjoins.mpr ⟨hoperation, htext, hhash, hversions⟩
    have hidentity := hsame s' after hstep hafter hsource
    have hij : some i = some j := by
      rw [← h.secondIdentity, ← h.firstIdentity]
      exact hidentity.scopeIdentity
    exact ⟨hidentity.serverId, hidentity.entityId, Option.some.inj hij, hidentity.scopeType⟩
  · intro hsplit s' after hstep hafter hsource
    obtain ⟨hoperation, htext, hhash, hversions⟩ := hjoins.mp ⟨s', after, hstep, hafter, hsource⟩
    have hcanonical := h.injective hhash
    obtain ⟨hserver, hentity, rfl, hscope⟩ := hsplit hoperation hcanonical hversions htext
    exact {
      operation := hoperation
      serverId := hserver
      entityId := hentity
      scopeType := hscope
      scopeIdentity := h.secondIdentity.trans h.firstIdentity.symm
      canonical := hcanonical
      versions := hversions }

end

/-! ### Two runs -/

/-- The digests of the texts of the runs below; those of other texts are left open. -/
def flightDigest (s : String) : String :=
  if s = "a:purge" then "ecc8e28d4ede4a22df3e3dac7b0057d04ad78afff0571fcebd73467ab5f5f38d"
  else exampleDigest s

def flightEnv : CacheEnv where
  sha256 := flightDigest
  config := ⟨true, "peta"⟩
  fitsEntry := fun _ _ => true

/-- A call of a tool by the user `alice`, without arguments. -/
def toolRequest (serverId toolName : String) : CacheRequest where
  operation := .tool
  serverId := serverId
  entityId := toolName
  scopeContext := ⟨some "alice", none⟩
  policy :=
    { enabled := true, ttlSeconds := 300, scope := .user, admissionPolicy := .immediate
      admissionWindowSeconds := 300, denyFields := [], allowFields := none, maxEntryBytes := 1024 }
  requestParams := some (.obj [])

/-- The steps of a lookup that misses. -/
def missedLookup (c : Nat) : List CacheAction :=
  [.readVersion c .global true, .readVersion c .server true, .readVersion c .entity true,
    .getEntry c .answered]

/-- Two calls, of which the first is in flight and the second has looked up in vain. -/
def twoCalls (r r' : CacheRequest) : List CacheAction :=
  .begin r :: .begin r' :: (missedLookup 0 ++ .enter 0 :: missedLookup 1)

/-- What the two calls of such a run are like. -/
def leadingCall (r : CacheRequest) : CacheCall :=
  ⟨r, 0, .leading, ⟨some 0, some 0, some 0⟩, some 6, none, some .own, none⟩

def enteringCall (r : CacheRequest) : CacheCall :=
  ⟨r, 1, .looked, ⟨some 0, some 0, some 0⟩, none, none, none, none⟩

theorem plain_zero : (⟨0, 0, 0⟩ : CacheNamespaceVersions).Plain := by
  intro slot
  cases slot <;> decide

theorem canonical_toolRequest (serverId toolName : String) :
    (toolRequest serverId toolName).canonical = "\x7b\x7d" := by
  show canonicalParams (some (.obj [])) [] none = "\x7b\x7d"
  decide +kernel

theorem isDigest_toolRequest (serverId toolName : String) :
    isDigest ((toolRequest serverId toolName).requestHash flightDigest) = true := by
  show isDigest (flightDigest (canonicalParams (some (.obj [])) [] none)) = true
  decide +kernel

/-- The calls of two users of the registry, as soon as the second looks for a flight. -/
theorem concurrent_toolRequests {s : CacheState} {serverId toolName serverId' toolName' : String}
    (hcalls : s.calls = [leadingCall (toolRequest serverId toolName),
      enteringCall (toolRequest serverId' toolName')]) :
    Concurrent flightEnv s 1 0 (enteringCall (toolRequest serverId' toolName'))
      (leadingCall (toolRequest serverId toolName)) "alice" "alice" where
  entering := by
    rw [hcalls]
    rfl
  looked := rfl
  secondIdentity := rfl
  inFlight := by
    rw [hcalls]
    rfl
  leading := rfl
  firstIdentity := rfl
  secondDigest := isDigest_toolRequest serverId' toolName'
  firstDigest := isDigest_toolRequest serverId toolName
  injective := by
    intro _
    exact (canonical_toolRequest serverId' toolName').trans
      (canonical_toolRequest serverId toolName).symm
  secondPlain := by
    intro v hv
    cases hv
    exact plain_zero
  firstPlain := by
    intro v hv
    cases hv
    exact plain_zero

/-- The registry does not distinguish the calls of one tool by one user. -/
theorem coalesced_only_with_same_identity_twoCalls :
    ∃ s trs, IsRun (step flightEnv) .init trs s ∧
      CoalescesOnlySame flightEnv s 1 0 (enteringCall (toolRequest "files" "purge"))
        (leadingCall (toolRequest "files" "purge")) := by
  have hexec : (exec (step flightEnv) .init
      (twoCalls (toolRequest "files" "purge") (toolRequest "files" "purge"))).map (·.calls) =
        some [leadingCall (toolRequest "files" "purge"),
          enteringCall (toolRequest "files" "purge")] := rfl
  obtain ⟨s, hs, hcalls⟩ := Option.map_eq_some_iff.mp hexec
  have hrun := isRun_trace CacheState.init s _ hs
  refine ⟨s, _, hrun, ?_⟩
  refine (coalesced_only_with_same_identity_iff hrun (concurrent_toolRequests hcalls)).mpr ?_
  intro _ _ _ _
  exact ⟨rfl, rfl, rfl, rfl⟩

/-- The tool `a:purge` of the server `files` and the tool `purge` of the server `files:a` have
    the same key: a call of the second gets the result of the first. -/
theorem coalesced_across_servers :
    (¬ ∀ (env : CacheEnv) (trs : List (Transition CacheState CacheAction)) (s : CacheState)
      (c d : Nat) (second first : CacheCall) (i j : String),
      IsRun (step env) .init trs s → Concurrent env s c d second first i j →
      CoalescesOnlySame env s c d second first) ∧
    (exec (step flightEnv) .init
        (twoCalls (toolRequest "files" "a:purge") (toolRequest "files:a" "purge") ++
          [.enter 1])).map (fun s => s.calls.map (·.source)) =
      some [some .own, some (.coalesced 0)] := by
  refine ⟨?_, by decide +kernel⟩
  intro hall
  have hexec : (exec (step flightEnv) .init
      (twoCalls (toolRequest "files" "a:purge") (toolRequest "files:a" "purge"))).map (·.calls) =
        some [leadingCall (toolRequest "files" "a:purge"),
          enteringCall (toolRequest "files:a" "purge")] := rfl
  obtain ⟨s, hs, hcalls⟩ := Option.map_eq_some_iff.mp hexec
  have hrun := isRun_trace CacheState.init s _ hs
  have hconcurrent := concurrent_toolRequests hcalls
  have htext : flightText (toolRequest "files:a" "purge") "alice" =
      flightText (toolRequest "files" "a:purge") "alice" := by decide
  have hkey := (singleflightKey_eq_iff hconcurrent.secondDigest hconcurrent.firstDigest
    hconcurrent.secondPlain hconcurrent.firstPlain).mpr ⟨rfl, htext, rfl, rfl⟩
  obtain ⟨s', after, hstep, hafter, hsource⟩ :=
    (enter_coalesces_iff (FlightsOk.of_run hrun) hconcurrent).mpr hkey
  have hsame := hall flightEnv _ s 1 0 _ _ "alice" "alice" hrun hconcurrent s' after hstep hafter
    hsource
  exact absurd hsame.serverId (by decide)

/-! ## The leaders -/

/-- The registry has exactly the calls that wait for their own factory in it, each under its key;
    so no two of them have the same key. -/
theorem leader_iff {env : CacheEnv} {s : CacheState}
    {trs : List (Transition CacheState CacheAction)} (hrun : IsRun (step env) .init trs s)
    (key : String) (c : Nat) :
    (∃ n, s.inflight.get? key = some ⟨c, n⟩) ↔ ∃ call identity, s.calls[c]? = some call ∧
      call.phase = .leading ∧ call.request.scopeIdentity = some identity ∧
      key = singleflightKey env.sha256 call.request identity call.lookupVersions := by
  have hok := FlightsOk.of_run hrun
  constructor
  · rintro ⟨n, hflight⟩
    exact hok.leads key _ hflight
  · rintro ⟨call, identity, hcall, hleading, hidentity, rfl⟩
    exact hok.registered c call identity hcall hleading hidentity

theorem leader_iff_twoCalls : ∃ s n, s.inflight.get? (singleflightKey flightDigest
    (toolRequest "files" "purge") "alice" (some ⟨0, 0, 0⟩)) = some ⟨0, n⟩ ∧
      exec (step flightEnv) .init (twoCalls (toolRequest "files" "purge")
        (toolRequest "files" "purge")) = some s := by
  have hexec : (exec (step flightEnv) .init (twoCalls (toolRequest "files" "purge")
      (toolRequest "files" "purge"))).map (·.calls[0]?) =
        some (some (leadingCall (toolRequest "files" "purge"))) := rfl
  obtain ⟨s, hs, hcall⟩ := Option.map_eq_some_iff.mp hexec
  obtain ⟨n, hn⟩ := (leader_iff (isRun_trace CacheState.init s _ hs) _ 0).mpr
    ⟨_, "alice", hcall, rfl, rfl, rfl⟩
  exact ⟨s, n, hn, hs⟩

end PetaCore
