import PetaCore.Core.PolicySystem

/-!
# What a step of the policy system can do

A step either leaves the content of every policy set alone or stores one set under a new
version; and whatever is evaluated or cached was read from the table, in the scope of the
evaluation.

## Key results

- `PolicyState.step_policyStep`: every step of `PolicyState.step` is a `PolicyStep`
- `PolicyStep.sets`: at most one set is stored, with a positive version
- `PolicyStep.sound`: sets that are cached or evaluated come from the table
-/

namespace PetaCore

/-- Two rows that hold the same content of the same policy set, up to `status`. -/
structure SameSet (p q : ToolPolicySet) : Prop where
  id : q.id = p.id
  serverId : q.serverId = p.serverId
  version : q.version = p.version
  dsl : q.dsl = p.dsl

theorem SameSet.refl (p : ToolPolicySet) : SameSet p p := ⟨rfl, rfl, rfl, rfl⟩

theorem SameSet.trans {p q r : ToolPolicySet} (h : SameSet p q) (h' : SameSet q r) :
    SameSet p r :=
  ⟨h'.id.trans h.id, h'.serverId.trans h.serverId, h'.version.trans h.version,
    h'.dsl.trans h.dsl⟩

namespace PolicyWrite

/-- The version a write is about to store is positive. -/
def Numbered (w : PolicyWrite) : Prop :=
  ∀ version, w.pc = .write version →
    match w.op with
    | .create .. | .update .. => 0 < version
    | .updateStatus .. | .delete .. => True

theorem numbered_start (op : PolicyWriteOp) : (start op).Numbered := by
  intro version hpc
  cases op with
  | create | update => cases hpc
  | updateStatus | delete => trivial

theorem numbered_of_pc {w : PolicyWrite} (h : ∀ version, w.pc ≠ .write version) :
    w.Numbered := by
  intro version hpc
  exact absurd hpc (h version)

theorem numbered_afterStatement (w : PolicyWrite) (res : PolicyWriteResult) :
    (w.afterStatement res).Numbered := by
  refine numbered_of_pc ?_
  intro version hpc
  cases res with
  | written _ | notFound => cases hpc
  | uniqueConstraint =>
    simp only [afterStatement] at hpc
    split at hpc
    · cases hpc
    · cases hpc

/-- A statement that writes stores the content of at most one set. -/
theorem statement_written {w : PolicyWrite} {version : Nat} {newId : String}
    {t t' : PolicyTable} (hw : w.Numbered) (hpc : w.pc = .write version)
    (h : w.statement version newId t = .written t') :
    ∃ id dsl v, 0 < v ∧ ∀ p ∈ t', (∃ q ∈ t, SameSet q p) ∨
      (p.id = id ∧ p.dsl = dsl ∧ p.version = v) := by
  have hnum := hw version hpc
  cases hop : w.op with
  | create serverId dsl =>
    rw [hop] at hnum
    simp only [statement, hop, PolicyTable.create] at h
    split at h
    · cases h
    · obtain rfl := PolicyWriteResult.written.inj h
      refine ⟨newId, dsl, version, hnum, ?_⟩
      intro p hp
      rcases List.mem_append.mp hp with hold | hnew
      · exact .inl ⟨p, hold, SameSet.refl p⟩
      · obtain rfl : p = ⟨newId, serverId, version, .active, dsl⟩ := by simpa using hnew
        exact .inr ⟨rfl, rfl, rfl⟩
  | update id serverId dsl status =>
    rw [hop] at hnum
    simp only [statement, hop, PolicyTable.update] at h
    split at h
    · cases h
    · split at h
      · cases h
      · obtain rfl := PolicyWriteResult.written.inj h
        refine ⟨id, dsl, version, hnum, ?_⟩
        intro p hp
        obtain ⟨q, hq, rfl⟩ := List.mem_map.mp hp
        split
        · rename_i hid
          exact .inr ⟨by simpa using hid, rfl, rfl⟩
        · exact .inl ⟨q, hq, SameSet.refl q⟩
  | updateStatus id serverId status =>
    simp only [statement, hop, PolicyTable.updateStatus] at h
    split at h
    · cases h
    · obtain rfl := PolicyWriteResult.written.inj h
      refine ⟨id, ⟨[]⟩, 1, Nat.one_pos, ?_⟩
      intro p hp
      obtain ⟨q, hq, rfl⟩ := List.mem_map.mp hp
      left
      split
      · exact ⟨q, hq, rfl, rfl, rfl, rfl⟩
      · exact ⟨q, hq, SameSet.refl q⟩
  | delete id serverId =>
    simp only [statement, hop, PolicyTable.delete] at h
    split at h
    · cases h
    · obtain rfl := PolicyWriteResult.written.inj h
      refine ⟨id, ⟨[]⟩, 1, Nat.one_pos, ?_⟩
      intro p hp
      exact .inl ⟨p, List.mem_of_mem_filter hp, SameSet.refl p⟩

end PolicyWrite

theorem PolicyTable.mem_activeSets {serverId : Option String} {t : PolicyTable}
    {p : ToolPolicySet} (h : p ∈ t.activeSets serverId) : p ∈ t ∧ p.serverId = serverId := by
  have hmem := (List.mem_insertionSort _).mp h
  obtain ⟨ht, hsel⟩ := List.mem_filter.mp hmem
  simp only [Bool.and_eq_true, beq_iff_eq] at hsel
  exact ⟨ht, hsel.1⟩

/-- A set an evaluation with this cache key may use: one of the server's or a global one. -/
def InScope (key : String) (p : ToolPolicySet) : Prop :=
  p.serverId = some key ∨ p.serverId = none

theorem inScope_of_serverId {serverId : Option String} {p : ToolPolicySet}
    (h : p.serverId = serverId) : InScope (cacheKey serverId) p := by
  cases serverId with
  | none => exact .inr h
  | some id => exact .inl h

namespace EvaluationPc

/-- The policy sets an evaluation has read so far. -/
def sets : EvaluationPc → List ToolPolicySet
  | fetch _ server «global» => server.getD [] ++ «global».getD []
  | done policies => policies

end EvaluationPc

namespace PolicyState

/-- Everything cached or evaluated has the property `K`, and is in the scope it is used
    for; versions about to be stored are positive. -/
structure Sound (K : ToolPolicySet → Prop) (s : PolicyState) : Prop where
  sets : ∀ p ∈ s.sets, K p
  cache : ∀ key entry, s.cache key = some entry → ∀ p ∈ entry.policies, K p ∧ InScope key p
  evaluations : ∀ ev ∈ s.evaluations, ∀ p ∈ ev.pc.sets,
    K p ∧ InScope (cacheKey ev.params.serverId) p
  writes : ∀ w ∈ s.writes, w.Numbered

theorem Sound.init (K : ToolPolicySet → Prop) : Sound K .init := by
  refine ⟨?_, ?_, ?_, ?_⟩
  · intro p hp
    simp [PolicyState.init] at hp
  · intro key entry h
    cases h
  · intro ev hev
    simp [PolicyState.init] at hev
  · intro w hw
    simp [PolicyState.init] at hw

theorem Sound.mono {K K' : ToolPolicySet → Prop} {s : PolicyState} (h : s.Sound K)
    (hmono : ∀ p, K p → K' p) : s.Sound K' := by
  refine ⟨fun p hp => hmono p (h.sets p hp), ?_, ?_, h.writes⟩
  · intro key entry hentry p hp
    have hkey := h.cache key entry hentry p hp
    exact ⟨hmono p hkey.1, hkey.2⟩
  · intro ev hev p hp
    have hold := h.evaluations ev hev p hp
    exact ⟨hmono p hold.1, hold.2⟩

/-- An entry that survives `clearCache` was there before. -/
theorem clearCache_some {serverId : Option String} {cache : String → Option PolicyCacheEntry}
    {key : String} {entry : PolicyCacheEntry}
    (h : clearCache serverId cache key = some entry) : cache key = some entry := by
  cases serverId with
  | none => cases h
  | some id =>
    simp only [clearCache] at h
    split at h
    · cases h
    · exact h

/-- An evaluation starts with what the cache holds under its key, or with nothing. -/
theorem startEvaluation_cases (s : PolicyState) (clock : Timestamp)
    (params : PolicyEvaluateParams) :
    (∃ entry, s.cache (cacheKey params.serverId) = some entry ∧
      s.startEvaluation clock params = ⟨params, .done entry.policies⟩) ∨
    ∃ pc : EvaluationPc, s.startEvaluation clock params = ⟨params, pc⟩ ∧ pc.sets = [] := by
  simp only [startEvaluation]
  split
  · refine .inr ⟨_, rfl, ?_⟩
    cases params.serverId <;> rfl
  · rename_i entry hentry
    split
    · exact .inl ⟨entry, hentry, rfl⟩
    · refine .inr ⟨_, rfl, ?_⟩
      cases params.serverId <;> rfl

end PolicyState

/-- A step of the policy system. -/
inductive PolicyStep (clock : Timestamp) (s : PolicyState) : PolicyState → Prop
  | evaluate (params : PolicyEvaluateParams) :
      PolicyStep clock s
        { s with evaluations := s.evaluations ++ [s.startEvaluation clock params] }
  | read (e : Nat) (ev : Evaluation) (pc : EvaluationPc) (hev : s.evaluations[e]? = some ev)
      (hsets : ∀ p ∈ pc.sets, p ∈ ev.pc.sets ∨
        (p ∈ s.sets ∧ (p.serverId = ev.params.serverId ∨ p.serverId = none))) :
      PolicyStep clock s { s with evaluations := s.evaluations.set e { ev with pc := pc } }
  | store (e : Nat) (ev : Evaluation) (now : Timestamp) (server g : List ToolPolicySet)
      (hev : s.evaluations[e]? = some ev) (hpc : ev.pc = .fetch now (some server) (some g)) :
      PolicyStep clock s { s with
        cache := fun k =>
          if k == cacheKey ev.params.serverId then some ⟨server ++ g, now⟩ else s.cache k
        evaluations := s.evaluations.set e { ev with pc := .done (server ++ g) } }
  | start (op : PolicyWriteOp) :
      PolicyStep clock s { s with writes := s.writes ++ [PolicyWrite.start op] }
  | readLatest (w : Nat) (wr : PolicyWrite) (hwr : s.writes[w]? = some wr)
      (hpc : wr.pc = .readLatest) :
      PolicyStep clock s { s with
        writes := s.writes.set w { wr with pc := .write (s.sets.nextVersion wr.op.scope) } }
  | write (w : Nat) (newId : String) (wr : PolicyWrite) (version : Nat) (t : PolicyTable)
      (hwr : s.writes[w]? = some wr) (hpc : wr.pc = .write version)
      (ht : t = s.sets ∨ wr.statement version newId s.sets = .written t) :
      PolicyStep clock s { s with
        sets := t
        writes := s.writes.set w (wr.afterStatement (wr.statement version newId s.sets)) }
  | clearCache (w : Nat) (wr : PolicyWrite) (hwr : s.writes[w]? = some wr)
      (hpc : wr.pc = .clearCache) :
      PolicyStep clock s { s with
        cache := PolicyState.clearCache wr.op.scope s.cache
        writes := s.writes.set w { wr with pc := .done } }
  | archive (serverId : Option String) :
      PolicyStep clock s { s with sets := s.sets.archiveByServerId serverId }

/-- Every step of the policy system is one of the steps of `PolicyStep`. -/
theorem PolicyState.step_policyStep {clock : Timestamp} {s s' : PolicyState}
    {a : PolicyAction} (h : s.step clock a = some s') : PolicyStep clock s s' := by
  cases a with
  | evaluate params =>
    cases h
    exact .evaluate params
  | readServer e =>
    obtain ⟨ev, hev, h⟩ := Option.bind_eq_some_iff.mp h
    split at h
    · rename_i now g hpc
      cases h
      refine .read e ev _ hev ?_
      intro p hp
      rw [hpc]
      simp only [EvaluationPc.sets, Option.getD_some, Option.getD_none, List.nil_append,
        List.mem_append] at hp ⊢
      rcases hp with hp | hp
      · have hmem := PolicyTable.mem_activeSets hp
        exact .inr ⟨hmem.1, .inl hmem.2⟩
      · exact .inl hp
    · cases h
  | readGlobal e =>
    obtain ⟨ev, hev, h⟩ := Option.bind_eq_some_iff.mp h
    split at h
    · rename_i now server hpc
      cases h
      refine .read e ev _ hev ?_
      intro p hp
      rw [hpc]
      simp only [EvaluationPc.sets, Option.getD_some, Option.getD_none, List.append_nil,
        List.mem_append] at hp ⊢
      rcases hp with hp | hp
      · exact .inl hp
      · have hmem := PolicyTable.mem_activeSets hp
        exact .inr ⟨hmem.1, .inr hmem.2⟩
    · cases h
  | store e =>
    obtain ⟨ev, hev, h⟩ := Option.bind_eq_some_iff.mp h
    split at h
    · rename_i now server g hpc
      cases h
      exact .store e ev now server g hev hpc
    · cases h
  | create _ _ | delete _ =>
    cases h
    exact .start _
  | update id dsl status =>
    obtain ⟨p, _, h⟩ := Option.bind_eq_some_iff.mp h
    cases h
    exact .start _
  | readLatest w =>
    obtain ⟨wr, hwr, h⟩ := Option.bind_eq_some_iff.mp h
    split at h
    · rename_i hpc
      cases h
      exact .readLatest w wr hwr hpc
    · cases h
  | write w newId =>
    obtain ⟨wr, hwr, h⟩ := Option.bind_eq_some_iff.mp h
    split at h
    · rename_i version hpc
      cases h
      refine .write w newId wr version _ hwr hpc ?_
      split
      · rename_i t hres
        exact .inr hres
      · exact .inl rfl
    · cases h
  | clearCache w =>
    obtain ⟨wr, hwr, h⟩ := Option.bind_eq_some_iff.mp h
    split at h
    · rename_i hpc
      cases h
      exact .clearCache w wr hwr hpc
    · cases h
  | archiveByServerId serverId =>
    cases h
    exact .archive serverId

namespace PolicyStep

variable {clock : Timestamp} {s s' : PolicyState}

/-- At most one set is stored in a step, with a positive version. -/
theorem sets (h : PolicyStep clock s s') (hs : ∀ w ∈ s.writes, w.Numbered) :
    ∃ id dsl v, 0 < v ∧ ∀ p ∈ s'.sets, (∃ q ∈ s.sets, SameSet q p) ∨
      (p.id = id ∧ p.dsl = dsl ∧ p.version = v) := by
  have kept : ∀ t : PolicyTable, (∀ p ∈ t, ∃ q ∈ s.sets, SameSet q p) →
      ∃ id dsl v, 0 < v ∧ ∀ p ∈ t, (∃ q ∈ s.sets, SameSet q p) ∨
        (p.id = id ∧ p.dsl = dsl ∧ p.version = v) :=
    fun t ht => ⟨"", ⟨[]⟩, 1, Nat.one_pos, fun p hp => .inl (ht p hp)⟩
  have same := kept s.sets fun p hp => ⟨p, hp, SameSet.refl p⟩
  cases h with
  | evaluate | read | store | start | readLatest | clearCache => exact same
  | write w newId wr version t hwr hpc ht =>
    rcases ht with rfl | hres
    · exact same
    · exact PolicyWrite.statement_written (hs wr (List.mem_of_getElem? hwr)) hpc hres
  | archive serverId =>
    refine kept _ ?_
    intro p hp
    obtain ⟨q, hq, rfl⟩ := List.mem_map.mp hp
    split
    · exact ⟨q, hq, rfl, rfl, rfl, rfl⟩
    · exact ⟨q, hq, SameSet.refl q⟩

/-- A call of `evaluate` keeps its parameters. -/
theorem evaluations (h : PolicyStep clock s s') {e : Nat} {ev : Evaluation}
    (hev : s.evaluations[e]? = some ev) :
    ∃ ev', s'.evaluations[e]? = some ev' ∧ ev'.params = ev.params := by
  have he : e < s.evaluations.length := (List.getElem?_eq_some_iff.mp hev).1
  have replaced : ∀ (e' : Nat) (ev₀ : Evaluation) (pc : EvaluationPc),
      s.evaluations[e']? = some ev₀ → ∃ ev',
        (s.evaluations.set e' { ev₀ with pc := pc })[e]? = some ev' ∧ ev'.params = ev.params := by
    intro e' ev₀ pc hev₀
    by_cases heq : e' = e
    · subst heq
      obtain rfl := Option.some.inj (hev.symm.trans hev₀)
      exact ⟨{ ev with pc := pc }, by simp [he], rfl⟩
    · exact ⟨ev, by rw [List.getElem?_set_ne heq]; exact hev, rfl⟩
  cases h with
  | evaluate params => exact ⟨ev, by rw [List.getElem?_append_left he]; exact hev, rfl⟩
  | read e' ev₀ pc hev₀ hsets => exact replaced e' ev₀ pc hev₀
  | store e' ev₀ now server g hev₀ hpc => exact replaced e' ev₀ _ hev₀
  | start | readLatest | write | clearCache | archive => exact ⟨ev, hev, rfl⟩

/-- What is cached or evaluated after a step comes from the table, or was before. -/
theorem sound {K K' : ToolPolicySet → Prop} (h : PolicyStep clock s s') (hs : s.Sound K)
    (hmono : ∀ p, K p → K' p) (hsets : ∀ p ∈ s'.sets, K' p) : s'.Sound K' := by
  obtain ⟨_, hcache, hevs, _⟩ := hs.mono hmono
  have hwrites : ∀ (w : Nat) (wr : PolicyWrite), wr.Numbered →
      ∀ wr' ∈ s.writes.set w wr, wr'.Numbered := by
    intro w wr hnum wr' hwr'
    rcases List.mem_or_eq_of_mem_set hwr' with hold | rfl
    · exact hs.writes wr' hold
    · exact hnum
  cases h with
  | evaluate params =>
    refine ⟨hsets, hcache, ?_, hs.writes⟩
    intro ev hev p hp
    rcases List.mem_append.mp hev with hold | hnew
    · exact hevs ev hold p hp
    · -- a new evaluation has what the cache holds under its key, or nothing
      obtain rfl : ev = s.startEvaluation clock params := by simpa using hnew
      rcases s.startEvaluation_cases clock params with ⟨entry, hentry, heq⟩ | ⟨pc, heq, hpc⟩
      · rw [heq] at hp ⊢
        exact hcache _ entry hentry p hp
      · rw [heq] at hp
        rw [hpc] at hp
        cases hp
  | read e ev pc hev hread =>
    refine ⟨hsets, hcache, ?_, hs.writes⟩
    intro ev' hev' p hp
    rcases List.mem_or_eq_of_mem_set hev' with hold | rfl
    · exact hevs ev' hold p hp
    · rcases hread p hp with hold | ⟨hmem, hscope⟩
      · exact hevs ev (List.mem_of_getElem? hev) p hold
      · refine ⟨hsets p hmem, ?_⟩
        rcases hscope with hscope | hscope
        · exact inScope_of_serverId hscope
        · exact .inr hscope
  | store e ev now server g hev hpc =>
    have hread : ∀ p ∈ server ++ g, K' p ∧ InScope (cacheKey ev.params.serverId) p := by
      intro p hp
      refine hevs ev (List.mem_of_getElem? hev) p ?_
      rw [hpc]
      exact hp
    refine ⟨hsets, ?_, ?_, hs.writes⟩
    · intro key entry hentry p hp
      by_cases hkey : key = cacheKey ev.params.serverId
      · simp only [hkey, beq_self_eq_true, if_true, Option.some.injEq] at hentry
        obtain rfl := hentry
        rw [hkey]
        exact hread p hp
      · simp only [beq_false_of_ne hkey, Bool.false_eq_true, if_false] at hentry
        exact hcache key entry hentry p hp
    · intro ev' hev' p hp
      rcases List.mem_or_eq_of_mem_set hev' with hold | rfl
      · exact hevs ev' hold p hp
      · exact hread p hp
  | start op =>
    refine ⟨hsets, hcache, hevs, ?_⟩
    intro w hw
    rcases List.mem_append.mp hw with hold | hnew
    · exact hs.writes w hold
    · obtain rfl : w = PolicyWrite.start op := by simpa using hnew
      exact PolicyWrite.numbered_start op
  | readLatest w wr hwr hpc =>
    refine ⟨hsets, hcache, hevs, hwrites w _ ?_⟩
    intro version heq
    obtain rfl := PolicyWritePc.write.inj heq
    show match wr.op with
      | .create .. | .update .. => 0 < s.sets.nextVersion wr.op.scope
      | .updateStatus .. | .delete .. => True
    split <;> first | exact Nat.succ_pos _ | trivial
  | write w newId wr version t hwr hpc ht =>
    exact ⟨hsets, hcache, hevs, hwrites w _ (PolicyWrite.numbered_afterStatement wr _)⟩
  | clearCache w wr hwr hpc =>
    refine ⟨hsets, ?_, hevs, hwrites w _ (PolicyWrite.numbered_of_pc ?_)⟩
    · intro key entry hentry p hp
      exact hcache key entry (PolicyState.clearCache_some hentry) p hp
    · intro version heq
      cases heq
  | archive serverId => exact ⟨hsets, hcache, hevs, hs.writes⟩

end PolicyStep

/-- The set that decides is one of those evaluated. -/
theorem matchingSet_mem {rt : DslRuntime} {policies : List ToolPolicySet}
    {params : PolicyEvaluateParams} {p : ToolPolicySet} {r : PolicyEvaluationResult}
    (h : matchingSet rt policies params = some (p, r)) : p ∈ policies := by
  obtain ⟨q, hq, hmap⟩ := List.exists_of_findSome?_eq_some h
  obtain ⟨r', _, heq⟩ := Option.map_eq_some_iff.mp hmap
  rw [← (Prod.mk.inj heq).1]
  exact hq

end PetaCore
