import PetaCore.ForStd.Run
import PetaCore.Spec.PolicySystem

/-!
# When policy changes take effect

An evaluation that misses the cache reads the database, and stores what it read in the cache
when both reads are done. A write clears the cache entries of its scope after its statement. A
read made before the statement whose cache fill comes after the clearing puts the old sets back,
and later evaluations use them until the entry is too old.

## Key results

- `evaluations_use_current_policies`: without such a fill, an evaluation that starts after a
  write has returned uses sets that were read after the write's statement
- `stale_fill_survives_clear`: with such a fill, it does not
-/

namespace PetaCore

open Run

/-- A transition of the policy system of a process. -/
abbrev PolicyTransition := Transition PolicyProcess (Timestamp × PolicyAction)

/-! ## What happened in a run -/

/-- At position `r` of the run, evaluation `e` reads the active sets of a scope. -/
def ReadsAt (trs : List PolicyTransition) (e r : Nat) (scope : Option String)
    (rows : List ToolPolicySet) : Prop :=
  ∃ tr ev, trs[r]? = some tr ∧ tr.pre.policy.evaluations[e]? = some ev ∧
    rows = tr.pre.policy.sets.activeSets scope ∧
    ((tr.act.2 = .readServer e ∧ ev.params.serverId = scope) ∨
      (tr.act.2 = .readGlobal e ∧ scope = none))

/-- At position `j` of the run, the call of `evaluate` that is evaluation `e` starts. -/
def StartsAt (trs : List PolicyTransition) (e j : Nat) (params : PolicyEvaluateParams) : Prop :=
  ∃ tr, trs[j]? = some tr ∧ tr.act.2 = .evaluate params ∧ tr.pre.policy.evaluations.length = e

/-- At position `i` of the run, the statement of write `w` changes the table. -/
def ChangesAt (trs : List PolicyTransition) (w i : Nat) : Prop :=
  ∃ tr newId wr version t, trs[i]? = some tr ∧ tr.act.2 = .write w newId ∧
    tr.pre.policy.writes[w]? = some wr ∧ wr.pc = .write version ∧
    wr.statement version newId tr.pre.policy.sets = .written t

/-- At position `c` of the run, write `w` clears the cache entries of its scope and returns. -/
def ReturnsAt (trs : List PolicyTransition) (w c : Nat) (scope : Option String) : Prop :=
  ∃ tr wr, trs[c]? = some tr ∧ tr.act.2 = .clearCache w ∧
    tr.pre.policy.writes[w]? = some wr ∧ wr.op.scope = scope

/-- A write for this scope changes the table at position `i` and returns at position `c`. -/
def ScopeChanged (trs : List PolicyTransition) (scope : Option String) (i c : Nat) : Prop :=
  ∃ w, ChangesAt trs w i ∧ ReturnsAt trs w c scope ∧ i < c

/-- The same for a scope that affects the evaluations with this cache key. -/
def Changed (trs : List PolicyTransition) (key : String) (i c : Nat) : Prop :=
  ∃ scope, ScopeChanged trs scope i c ∧ (scope = none ∨ scope = some key)

/-- The policy sets are the result of reads made after position `i`: of the server's sets and of
    the global ones. Evaluations without a server, which have the key `__global__`, only read the
    latter. -/
def ReadSince (trs : List PolicyTransition) (i : Nat) (key : String)
    (policies : List ToolPolicySet) : Prop :=
  ∃ server g, policies = server ++ g ∧
    ((∃ e r, i < r ∧ ReadsAt trs e r (some key) server) ∨ (server = [] ∧ key = "__global__")) ∧
    ∃ e r, i < r ∧ ReadsAt trs e r none g

/-- A fill of the cache is not made with sets that were read before the statement of a write
    for the same server, or a global one, that has returned meanwhile. -/
def FillsFresh (before : List PolicyTransition) (tr : PolicyTransition) : Prop :=
  ∀ e ev, tr.act.2 = .store e → tr.pre.policy.evaluations[e]? = some ev →
    ∀ i c, Changed before (cacheKey ev.params.serverId) i c →
    ∀ r scope rows, ReadsAt before e r scope rows → i < r

/-! ## One more transition -/

section

variable {trs : List PolicyTransition} {x : PolicyTransition}

theorem ReadsAt.snoc {e r : Nat} {scope : Option String} {rows : List ToolPolicySet}
    (h : ReadsAt trs e r scope rows) : ReadsAt (trs ++ [x]) e r scope rows := by
  obtain ⟨tr, ev, htr, hrest⟩ := h
  exact ⟨tr, ev, (getElem?_snoc trs x tr r).mpr (.inl htr), hrest⟩

theorem ReadSince.snoc {i : Nat} {key : String} {policies : List ToolPolicySet}
    (h : ReadSince trs i key policies) : ReadSince (trs ++ [x]) i key policies := by
  obtain ⟨server, g, hpolicies, hserver, e, r, hr, hread⟩ := h
  refine ⟨server, g, hpolicies, ?_, e, r, hr, hread.snoc⟩
  cases hserver with
  | inl hserver =>
    obtain ⟨e', r', hr', hread'⟩ := hserver
    exact .inl ⟨e', r', hr', hread'.snoc⟩
  | inr hserver => exact .inr hserver

/-- A position of the run is before its end. -/
private theorem lt_of_getElem? {tr : PolicyTransition} {r : Nat} (h : trs[r]? = some tr) :
    r < trs.length :=
  (List.getElem?_eq_some_iff.mp h).1

/-- A change that has returned after one more transition had returned before, or returns in that
    transition, which clears the entry of the key. -/
theorem changed_snoc {key : String} {i c : Nat} (h : Changed (trs ++ [x]) key i c) :
    Changed trs key i c ∨
    (c = trs.length ∧ ∃ w wr, x.act.2 = .clearCache w ∧
      x.pre.policy.writes[w]? = some wr ∧ (wr.op.scope = none ∨ wr.op.scope = some key)) := by
  obtain ⟨scope, ⟨w, ⟨tr, newId, wr, version, t, htr, hchange⟩,
    ⟨tr', wr', htr', hact, hwr, hscope⟩, hlt⟩, haffects⟩ := h
  cases (getElem?_snoc trs x tr' c).mp htr' with
  | inl hold =>
    -- the statement stands before the clearing, so it is no later than the old end
    have hic := lt_of_getElem? hold
    cases (getElem?_snoc trs x tr i).mp htr with
    | inl hold' =>
      exact .inl ⟨scope, ⟨w, ⟨tr, newId, wr, version, t, hold', hchange⟩,
        ⟨tr', wr', hold, hact, hwr, hscope⟩, hlt⟩, haffects⟩
    | inr hnew => omega
  | inr hnew =>
    obtain ⟨hc, rfl⟩ := hnew
    rw [← hscope] at haffects
    exact .inr ⟨hc, w, wr', hact, hwr, haffects⟩

end

section

variable {trs : List PolicyTransition} {x : PolicyTransition}

theorem readsAt_snoc {e r : Nat} {scope : Option String} {rows : List ToolPolicySet}
    (h : ReadsAt (trs ++ [x]) e r scope rows) :
    ReadsAt trs e r scope rows ∨
    (r = trs.length ∧ e < x.pre.policy.evaluations.length ∧
      (x.act.2 = .readServer e ∨ x.act.2 = .readGlobal e)) := by
  obtain ⟨tr, ev, htr, hev, hrows, hact⟩ := h
  cases (getElem?_snoc trs x tr r).mp htr with
  | inl hold => exact .inl ⟨tr, ev, hold, hev, hrows, hact⟩
  | inr hnew =>
    obtain ⟨hr, rfl⟩ := hnew
    refine .inr ⟨hr, (List.getElem?_eq_some_iff.mp hev).1, ?_⟩
    cases hact with
    | inl hact => exact .inl hact.1
    | inr hact => exact .inr hact.1

theorem startsAt_snoc {e j : Nat} {params : PolicyEvaluateParams}
    (h : StartsAt (trs ++ [x]) e j params) :
    (StartsAt trs e j params ∧ j < trs.length) ∨
    (j = trs.length ∧ x.act.2 = .evaluate params ∧ x.pre.policy.evaluations.length = e) := by
  obtain ⟨tr, htr, hact⟩ := h
  cases (getElem?_snoc trs x tr j).mp htr with
  | inl hold => exact .inl ⟨⟨tr, hold, hact⟩, lt_of_getElem? hold⟩
  | inr hnew =>
    obtain ⟨hj, rfl⟩ := hnew
    exact .inr ⟨hj, hact⟩

end

/-! ## The invariant -/

/-- What an evaluation has fetched so far is what its own reads returned. -/
def Fetched (trs : List PolicyTransition) (e : Nat) (serverId : Option String)
    (server g : Option (List ToolPolicySet)) : Prop :=
  (match serverId with
    | none => server = some []
    | some id => ∀ rows, server = some rows → ∃ r, ReadsAt trs e r (some id) rows) ∧
  ∀ rows, g = some rows → ∃ r, ReadsAt trs e r none rows

/-- A complete fetch whose reads were all made after position `i`. -/
theorem Fetched.readSince {trs : List PolicyTransition} {e i : Nat} {serverId : Option String}
    {server g : List ToolPolicySet} (h : Fetched trs e serverId (some server) (some g))
    (hsince : ∀ r scope rows, ReadsAt trs e r scope rows → i < r) :
    ReadSince trs i (cacheKey serverId) (server ++ g) := by
  obtain ⟨hserver, hglobal⟩ := h
  obtain ⟨r, hread⟩ := hglobal g rfl
  refine ⟨server, g, rfl, ?_, e, r, hsince r none g hread, hread⟩
  cases serverId with
  | none =>
    cases hserver
    exact .inr ⟨rfl, rfl⟩
  | some id =>
    obtain ⟨r', hread'⟩ := hserver server rfl
    exact .inl ⟨e, r', hsince r' _ server hread', hread'⟩

/-- In a run whose cache fills are fresh: reads belong to evaluations that have started, what is
    fetched was read, and what is cached, or used by an evaluation that started later, was read
    after every change that has returned. -/
structure Fresh (trs : List PolicyTransition) (s : PolicyState) : Prop where
  reads : ∀ e r scope rows, ReadsAt trs e r scope rows → e < s.evaluations.length
  order : ∀ e j r params scope rows, StartsAt trs e j params → ReadsAt trs e r scope rows → j < r
  fetch : ∀ e ev now server g, s.evaluations[e]? = some ev → ev.pc = .fetch now server g →
    Fetched trs e ev.params.serverId server g
  cache : ∀ key entry, s.cache key = some entry → ∀ i c, Changed trs key i c →
    ReadSince trs i key entry.policies
  done : ∀ e ev policies, s.evaluations[e]? = some ev → ev.pc = .done policies →
    ∀ j params, StartsAt trs e j params →
    ∀ i c, Changed trs (cacheKey ev.params.serverId) i c → c < j →
    ReadSince trs i (cacheKey ev.params.serverId) policies

namespace Fresh

variable {trs : List PolicyTransition} {x : PolicyTransition} {s s' : PolicyState}

theorem init : Fresh [] .init := by
  refine ⟨?_, ?_, ?_, ?_, ?_⟩
  · intro e r scope rows ⟨tr, ev, htr, _⟩
    simp at htr
  · intro e j r params scope rows ⟨tr, htr, _⟩
    simp at htr
  · intro e ev now server g hev
    simp [PolicyState.init] at hev
  · intro key entry hentry
    cases hentry
  · intro e ev policies hev
    simp [PolicyState.init] at hev

theorem reads_snoc (h : Fresh trs s) (hpre : x.pre.policy = s)
    (hlen : s.evaluations.length ≤ s'.evaluations.length) (e r : Nat) (scope : Option String)
    (rows : List ToolPolicySet) (hread : ReadsAt (trs ++ [x]) e r scope rows) :
    e < s'.evaluations.length := by
  cases readsAt_snoc hread with
  | inl hold => exact Nat.lt_of_lt_of_le (h.reads e r scope rows hold) hlen
  | inr hnew =>
    obtain ⟨_, hlt, _⟩ := hnew
    rw [hpre] at hlt
    omega

theorem order_snoc (h : Fresh trs s) (hpre : x.pre.policy = s) (e j r : Nat)
    (params : PolicyEvaluateParams) (scope : Option String) (rows : List ToolPolicySet)
    (hstart : StartsAt (trs ++ [x]) e j params) (hread : ReadsAt (trs ++ [x]) e r scope rows) :
    j < r := by
  cases startsAt_snoc hstart with
  | inl hold =>
    cases readsAt_snoc hread with
    | inl hread => exact h.order e j r params scope rows hold.1 hread
    | inr hnew =>
      rw [hnew.1]
      exact hold.2
  | inr hnew =>
    -- an evaluation that starts now has not read before, and does not read in the same step
    obtain ⟨_, hact, hlen⟩ := hnew
    cases readsAt_snoc hread with
    | inl hread =>
      have hlt := h.reads e r scope rows hread
      rw [hpre] at hlen
      omega
    | inr hread =>
      rw [hact] at hread
      cases hread.2.2 with
      | inl heq | inr heq => cases heq

theorem fetched_snoc {e : Nat} {serverId : Option String}
    {server g : Option (List ToolPolicySet)} (h : Fetched trs e serverId server g) :
    Fetched (trs ++ [x]) e serverId server g := by
  refine ⟨?_, ?_⟩
  · cases serverId with
    | none => exact h.1
    | some id =>
      intro rows hrows
      obtain ⟨r, hread⟩ := h.1 rows hrows
      exact ⟨r, hread.snoc⟩
  · intro rows hrows
    obtain ⟨r, hread⟩ := h.2 rows hrows
    exact ⟨r, hread.snoc⟩

/-- What an evaluation that was there before uses is not changed by a later change. -/
theorem done_snoc (h : Fresh trs s) (hpre : x.pre.policy = s) {e : Nat} {ev : Evaluation}
    {policies : List ToolPolicySet} (hev : s.evaluations[e]? = some ev)
    (hpc : ev.pc = .done policies) (j : Nat) (params : PolicyEvaluateParams)
    (hstart : StartsAt (trs ++ [x]) e j params) (i c : Nat)
    (hchanged : Changed (trs ++ [x]) (cacheKey ev.params.serverId) i c) (hlt : c < j) :
    ReadSince (trs ++ [x]) i (cacheKey ev.params.serverId) policies := by
  cases startsAt_snoc hstart with
  | inl hold =>
    cases changed_snoc hchanged with
    | inl hchanged => exact (h.done e ev policies hev hpc j params hold.1 i c hchanged hlt).snoc
    | inr hnew =>
      have hj := hold.2
      omega
  | inr hnew =>
    obtain ⟨_, _, hlen⟩ := hnew
    have he := (List.getElem?_eq_some_iff.mp hev).1
    rw [hpre] at hlen
    omega

end Fresh

/-- The first look of an evaluation into the cache. -/
private theorem startEvaluation_hit_or_miss (s : PolicyState) (clock : Timestamp)
    (params : PolicyEvaluateParams) :
    (∃ entry, s.cache (cacheKey params.serverId) = some entry ∧
      s.startEvaluation clock params = ⟨params, .done entry.policies⟩) ∨
    s.startEvaluation clock params = ⟨params, .fetch clock
      (match params.serverId with | none => some [] | some _ => none) none⟩ := by
  simp only [PolicyState.startEvaluation]
  split
  · exact .inr rfl
  · rename_i entry hentry
    split
    · exact .inl ⟨entry, hentry, rfl⟩
    · exact .inr rfl

/-- An evaluation that has read nothing yet. -/
private theorem fetched_nothing (trs : List PolicyTransition) (e : Nat)
    (serverId : Option String) :
    Fetched trs e serverId (match serverId with | none => some [] | some _ => none) none := by
  refine ⟨?_, fun rows hrows => by cases hrows⟩
  cases serverId with
  | none => rfl
  | some id =>
    intro rows hrows
    cases hrows

namespace Fresh

variable {trs : List PolicyTransition} {x : PolicyTransition} {s : PolicyState}

/-- The cache after a step that does not clear it. -/
theorem cache_snoc (h : Fresh trs s) (hact : ∀ w, x.act.2 ≠ .clearCache w) (key : String)
    (entry : PolicyCacheEntry) (hentry : s.cache key = some entry) (i c : Nat)
    (hchanged : Changed (trs ++ [x]) key i c) :
    ReadSince (trs ++ [x]) i key entry.policies := by
  cases changed_snoc hchanged with
  | inl hchanged => exact (h.cache key entry hentry i c hchanged).snoc
  | inr hnew =>
    obtain ⟨_, w, wr, hclear, _⟩ := hnew
    exact absurd hclear (hact w)

/-- A step that neither starts nor moves an evaluation and leaves the cache as it is. -/
theorem quiet {s' : PolicyState} (h : Fresh trs s) (hpre : x.pre.policy = s)
    (hevs : s'.evaluations = s.evaluations) (hcache : s'.cache = s.cache)
    (hact : ∀ w, x.act.2 ≠ .clearCache w) : Fresh (trs ++ [x]) s' := by
  refine ⟨h.reads_snoc hpre (by rw [hevs]), h.order_snoc hpre, ?_, ?_, ?_⟩
  · intro e ev now server g hev hpc
    rw [hevs] at hev
    exact fetched_snoc (h.fetch e ev now server g hev hpc)
  · intro key entry hentry
    rw [hcache] at hentry
    exact h.cache_snoc hact key entry hentry
  · intro e ev policies hev hpc
    rw [hevs] at hev
    exact h.done_snoc hpre hev hpc

/-- A new evaluation starts with the cache entry of its key, or with nothing. -/
theorem evaluate (h : Fresh trs s) (hpre : x.pre.policy = s) (clock : Timestamp)
    (params : PolicyEvaluateParams) (hact : x.act.2 = .evaluate params) :
    Fresh (trs ++ [x])
      { s with evaluations := s.evaluations ++ [s.startEvaluation clock params] } := by
  have hclear : ∀ w, x.act.2 ≠ .clearCache w := by
    intro w heq
    rw [hact] at heq
    cases heq
  refine ⟨h.reads_snoc hpre (by simp), h.order_snoc hpre, ?_, h.cache_snoc hclear, ?_⟩
  · intro e ev now server g hev hpc
    cases (getElem?_snoc _ _ ev e).mp hev with
    | inl hold => exact fetched_snoc (h.fetch e ev now server g hold hpc)
    | inr hnew =>
      obtain ⟨_, rfl⟩ := hnew
      rcases startEvaluation_hit_or_miss s clock params with ⟨entry, _, heq⟩ | heq
      · rw [heq] at hpc
        cases hpc
      · rw [heq] at hpc ⊢
        cases hpc
        exact fetched_nothing _ e params.serverId
  · intro e ev policies hev hpc j params' hstart i c hchanged hlt
    cases (getElem?_snoc _ _ ev e).mp hev with
    | inl hold => exact h.done_snoc hpre hold hpc j params' hstart i c hchanged hlt
    | inr hnew =>
      obtain ⟨_, rfl⟩ := hnew
      rcases startEvaluation_hit_or_miss s clock params with ⟨entry, hentry, heq⟩ | heq
      · rw [heq] at hpc hchanged ⊢
        cases hpc
        exact h.cache_snoc hclear _ entry hentry i c hchanged
      · rw [heq] at hpc
        cases hpc

variable {e : Nat}

/-- The evaluations after a step that moves one of them. -/
theorem moved {ev₀ : Evaluation} {pc : EvaluationPc}
    {cache : String → Option PolicyCacheEntry} (h : Fresh trs s) (hpre : x.pre.policy = s)
    (hev₀ : s.evaluations[e]? = some ev₀)
    (hfetch : ∀ now server g, pc = .fetch now server g →
      Fetched (trs ++ [x]) e ev₀.params.serverId server g)
    (hdone : ∀ policies, pc = .done policies → ∀ j params, StartsAt (trs ++ [x]) e j params →
      ∀ i c, Changed (trs ++ [x]) (cacheKey ev₀.params.serverId) i c → c < j →
      ReadSince (trs ++ [x]) i (cacheKey ev₀.params.serverId) policies)
    (hcache : ∀ key entry, cache key = some entry → ∀ i c, Changed (trs ++ [x]) key i c →
      ReadSince (trs ++ [x]) i key entry.policies) :
    Fresh (trs ++ [x]) { s with
      cache := cache, evaluations := s.evaluations.set e { ev₀ with pc := pc } } := by
  have he := (List.getElem?_eq_some_iff.mp hev₀).1
  refine ⟨h.reads_snoc hpre (by simp), h.order_snoc hpre, ?_, hcache, ?_⟩
  · intro e' ev now server g hev hpc
    by_cases heq : e = e'
    · subst heq
      rw [List.getElem?_set_self he] at hev
      cases hev
      exact hfetch now server g hpc
    · rw [List.getElem?_set_ne heq] at hev
      exact fetched_snoc (h.fetch e' ev now server g hev hpc)
  · intro e' ev policies hev hpc
    by_cases heq : e = e'
    · subst heq
      rw [List.getElem?_set_self he] at hev
      cases hev
      exact hdone policies hpc
    · rw [List.getElem?_set_ne heq] at hev
      exact h.done_snoc hpre hev hpc

variable {ev : Evaluation}

/-- A read by an evaluation in the step itself. -/
private theorem readsAt_last {scope : Option String}
    (hpre : x.pre.policy = s) (hev : s.evaluations[e]? = some ev)
    (hact : (x.act.2 = .readServer e ∧ ev.params.serverId = scope) ∨
      (x.act.2 = .readGlobal e ∧ scope = none)) :
    ReadsAt (trs ++ [x]) e trs.length scope (s.sets.activeSets scope) := by
  refine ⟨x, ev, (getElem?_snoc _ _ _ _).mpr (.inr ⟨rfl, rfl⟩), ?_, ?_, hact⟩
  · rw [hpre]
    exact hev
  · rw [hpre]

/-- The read of the server's own sets. -/
theorem readServer {now : Timestamp}
    {g : Option (List ToolPolicySet)} (h : Fresh trs s) (hpre : x.pre.policy = s)
    (hact : x.act.2 = .readServer e) (hev : s.evaluations[e]? = some ev)
    (hpc : ev.pc = .fetch now none g) :
    Fresh (trs ++ [x]) { s with
      evaluations := s.evaluations.set e { ev with
        pc := .fetch now (some (s.sets.activeSets ev.params.serverId)) g } } := by
  refine h.moved hpre hev ?_ (fun policies heq => by cases heq) (h.cache_snoc ?_)
  · intro now' server g' heq
    cases heq
    have hold := fetched_snoc (x := x) (h.fetch e ev now none g hev hpc)
    refine ⟨?_, hold.2⟩
    have hread : ReadsAt (trs ++ [x]) e trs.length ev.params.serverId
        (s.sets.activeSets ev.params.serverId) :=
      readsAt_last hpre hev (.inl ⟨hact, rfl⟩)
    cases hserver : ev.params.serverId with
    | none =>
      -- without a server there is nothing left to read here
      have hnone := hold.1
      rw [hserver] at hnone
      cases hnone
    | some id =>
      intro rows hrows
      cases hrows
      rw [hserver] at hread
      exact ⟨trs.length, hread⟩
  · intro w heq
    rw [hact] at heq
    cases heq

/-- The read of the global sets. -/
theorem readGlobal {now : Timestamp}
    {server : Option (List ToolPolicySet)} (h : Fresh trs s) (hpre : x.pre.policy = s)
    (hact : x.act.2 = .readGlobal e) (hev : s.evaluations[e]? = some ev)
    (hpc : ev.pc = .fetch now server none) :
    Fresh (trs ++ [x]) { s with
      evaluations := s.evaluations.set e { ev with
        pc := .fetch now server (some (s.sets.activeSets none)) } } := by
  refine h.moved hpre hev ?_ (fun policies heq => by cases heq) (h.cache_snoc ?_)
  · intro now' server' g heq
    cases heq
    have hold := fetched_snoc (x := x) (h.fetch e ev now server none hev hpc)
    refine ⟨hold.1, ?_⟩
    intro rows hrows
    cases hrows
    exact ⟨trs.length, readsAt_last hpre hev (.inr ⟨hact, rfl⟩)⟩
  · intro w heq
    rw [hact] at heq
    cases heq

/-- The fill of the cache, which is fresh by assumption. -/
theorem store {now : Timestamp} {server g : List ToolPolicySet}
    (h : Fresh trs s) (hpre : x.pre.policy = s) (hact : x.act.2 = .store e)
    (hfills : FillsFresh trs x) (hev : s.evaluations[e]? = some ev)
    (hpc : ev.pc = .fetch now (some server) (some g)) :
    Fresh (trs ++ [x]) { s with
      cache := fun k =>
        if k == cacheKey ev.params.serverId then some ⟨server ++ g, now⟩ else s.cache k
      evaluations := s.evaluations.set e { ev with pc := .done (server ++ g) } } := by
  have hfetched := h.fetch e ev now (some server) (some g) hev hpc
  have hclear : ∀ w, x.act.2 ≠ .clearCache w := by
    intro w heq
    rw [hact] at heq
    cases heq
  have hold : ∀ key i c, Changed (trs ++ [x]) key i c → Changed trs key i c := by
    intro key i c hchanged
    cases changed_snoc hchanged with
    | inl hchanged => exact hchanged
    | inr hnew =>
      obtain ⟨_, w, wr, heq, _⟩ := hnew
      exact absurd heq (hclear w)
  refine h.moved hpre hev (fun now' server' g' heq => by cases heq) ?_ ?_
  · intro policies heq j params hstart i c hchanged hlt
    cases heq
    -- the reads of an evaluation come after its start
    refine (hfetched.readSince fun r scope rows hread => ?_).snoc
    have hj := h.order_snoc hpre e j r params scope rows hstart hread.snoc
    obtain ⟨scope', ⟨w, hchange, hreturn, hic⟩, _⟩ := hchanged
    omega
  · intro key entry hentry i c hchanged
    by_cases hkey : key = cacheKey ev.params.serverId
    · simp only [hkey, beq_self_eq_true, if_true, Option.some.injEq] at hentry
      obtain rfl := hentry
      rw [hkey] at hchanged ⊢
      refine (hfetched.readSince fun r scope rows hread => ?_).snoc
      exact hfills e ev hact (by rw [hpre]; exact hev) i c (hold _ i c hchanged) r scope rows hread
    · simp only [beq_false_of_ne hkey, Bool.false_eq_true, if_false] at hentry
      exact h.cache_snoc hclear key entry hentry i c hchanged

/-- A write that returns clears the entries of its scope. -/
theorem clearCache {w : Nat} {wr : PolicyWrite} {writes : List PolicyWrite} (h : Fresh trs s)
    (hpre : x.pre.policy = s) (hact : x.act.2 = .clearCache w) (hwr : s.writes[w]? = some wr) :
    Fresh (trs ++ [x]) { s with
      cache := PolicyState.clearCache wr.op.scope s.cache, writes := writes } := by
  refine ⟨h.reads_snoc hpre (Nat.le_refl _), h.order_snoc hpre, ?_, ?_, ?_⟩
  · intro e ev now server g hev hpc
    exact fetched_snoc (h.fetch e ev now server g hev hpc)
  · intro key entry hentry i c hchanged
    cases changed_snoc hchanged with
    | inl hchanged =>
      exact (h.cache key entry (PolicyState.clearCache_some hentry) i c hchanged).snoc
    | inr hnew =>
      -- the entry of an affected key does not survive
      obtain ⟨_, w', wr', heq, hwr', hscope⟩ := hnew
      rw [hact] at heq
      cases heq
      rw [hpre, hwr] at hwr'
      cases hwr'
      cases hscope with
      | inl hnone =>
        rw [hnone] at hentry
        cases hentry
      | inr hsome =>
        rw [hsome] at hentry
        simp [PolicyState.clearCache] at hentry
  · intro e ev policies hev hpc
    exact h.done_snoc hpre hev hpc

/-- Every step of the policy system keeps what is cached and used fresh. -/
theorem step {clock : Timestamp} {s' : PolicyState} (h : Fresh trs s)
    (hpre : x.pre.policy = s) (hstep : s.step clock x.act.2 = some s')
    (hfills : FillsFresh trs x) : Fresh (trs ++ [x]) s' := by
  cases hact : x.act.2 with
  | evaluate params =>
    rw [hact] at hstep
    cases hstep
    exact h.evaluate hpre clock params hact
  | readServer e =>
    rw [hact] at hstep
    obtain ⟨ev, hev, hstep⟩ := Option.bind_eq_some_iff.mp hstep
    split at hstep
    · rename_i now g hpc
      cases hstep
      exact h.readServer hpre hact hev hpc
    · cases hstep
  | readGlobal e =>
    rw [hact] at hstep
    obtain ⟨ev, hev, hstep⟩ := Option.bind_eq_some_iff.mp hstep
    split at hstep
    · rename_i now server hpc
      cases hstep
      exact h.readGlobal hpre hact hev hpc
    · cases hstep
  | store e =>
    rw [hact] at hstep
    obtain ⟨ev, hev, hstep⟩ := Option.bind_eq_some_iff.mp hstep
    split at hstep
    · rename_i now server g hpc
      cases hstep
      exact h.store hpre hact hfills hev hpc
    · cases hstep
  | clearCache w =>
    rw [hact] at hstep
    obtain ⟨wr, hwr, hstep⟩ := Option.bind_eq_some_iff.mp hstep
    split at hstep
    · cases hstep
      exact h.clearCache hpre hact hwr
    · cases hstep
  | create _ _ | delete _ | archiveByServerId _ =>
    rw [hact] at hstep
    cases hstep
    exact h.quiet hpre rfl rfl (by simp [hact])
  | update id dsl status =>
    rw [hact] at hstep
    obtain ⟨p, _, hstep⟩ := Option.bind_eq_some_iff.mp hstep
    cases hstep
    exact h.quiet hpre rfl rfl (by simp [hact])
  | readLatest _ | write _ _ =>
    rw [hact] at hstep
    obtain ⟨wr, hwr, hstep⟩ := Option.bind_eq_some_iff.mp hstep
    split at hstep
    · cases hstep
      exact h.quiet hpre rfl rfl (by simp [hact])
    · cases hstep

end Fresh

/-! ## Runs -/

variable {s : PolicyProcess}

theorem fresh_of_run {clock : Timestamp} {trs : List PolicyTransition}
    (hrun : IsRun PolicyProcess.step (.init clock) trs s) (hfills : Along FillsFresh trs) :
    Fresh trs s.policy := by
  revert hfills
  refine IsRun.history (P := fun trs s => Along FillsFresh trs → Fresh trs s.policy) ?_ ?_ hrun
  · intro _
    exact Fresh.init
  · intro trs s a s' _ ih hstep hfills
    obtain ⟨hold, hnew⟩ := (along_snoc FillsFresh trs _).mp hfills
    simp only [PolicyProcess.step] at hstep
    split at hstep
    · obtain ⟨p, hp, hstep⟩ := Option.bind_eq_some_iff.mp hstep
      cases hstep
      exact (ih hold).step rfl hp hnew
    · cases hstep

/-- In every run whose cache fills are fresh, an evaluation that starts after a write has
    returned uses, if the write's scope is global or the evaluation's server, policy sets that
    were read after the write's statement. -/
theorem evaluations_use_current_policies (clock : Timestamp) (trs : List PolicyTransition)
    (s : PolicyProcess) (hrun : IsRun PolicyProcess.step (.init clock) trs s)
    (hfills : Along FillsFresh trs) (e j i c : Nat) (scope : Option String)
    (params : PolicyEvaluateParams) (policies : List ToolPolicySet)
    (hchanged : ScopeChanged trs scope i c) (hstart : StartsAt trs e j params) (hlt : c < j)
    (haffects : scope = none ∨ scope = params.serverId)
    (hdone : s.policy.evaluations[e]? = some ⟨params, .done policies⟩) :
    ReadSince trs i (cacheKey params.serverId) policies := by
  refine (fresh_of_run hrun hfills).done e _ policies hdone rfl j params hstart i c ?_ hlt
  refine ⟨scope, hchanged, ?_⟩
  cases haffects with
  | inl hglobal => exact .inl hglobal
  | inr hserver =>
    rw [hserver]
    cases params.serverId with
    | none => exact .inl rfl
    | some id => exact .inr rfl

/-! ## A fetch in flight across a change -/

/-- Calls of one tool of one server. -/
def filesParams : PolicyEvaluateParams := ⟨"alice", some "files", "purge", .obj [], .silent⟩

/-- A policy set that denies them is created. -/
def denyFiles : List PolicyAction :=
  [.create (some "files") ⟨[⟨"deny", none, ⟨none, none⟩, [], [], ⟨.deny, none⟩⟩]⟩,
    .readLatest 0, .write 0 "p1", .clearCache 0]

/-- A call is evaluated up to its fill of the cache. -/
def fetchFiles : List PolicyAction := [.evaluate filesParams, .readServer 0, .readGlobal 0]

/-- The set is created, then a call is evaluated. -/
def freshRun : List (Timestamp × PolicyAction) :=
  (denyFiles ++ fetchFiles ++ [PolicyAction.store 0]).map (Prod.mk 0)

/-- The set is created while a call is evaluated, which fills the cache afterwards with what it
    had read before; then another call is evaluated. -/
def staleRun : List (Timestamp × PolicyAction) :=
  (fetchFiles ++ denyFiles ++ [PolicyAction.store 0, .evaluate filesParams]).map (Prod.mk 0)

/-- The action is a read of an evaluation. -/
def isRead : PolicyAction → Bool
  | .readServer _ | .readGlobal _ => true
  | _ => false

/-- The action is the statement of a write. -/
def isStatement : PolicyAction → Bool
  | .write _ _ => true
  | _ => false

/-- The statement of the write changes the table in this transition. -/
def changesTable (tr : PolicyTransition) : Bool :=
  match (tr.pre.policy.writes[0]? : Option PolicyWrite) with
  | some ⟨op, n, .write version⟩ =>
    match PolicyWrite.statement ⟨op, n, .write version⟩ version "p1" tr.pre.policy.sets with
    | .written _ => true
    | _ => false
  | _ => false

variable {as : List (Timestamp × PolicyAction)}

/-- The action at a position of a run that is given by its actions. -/
private theorem act_at
    (h : exec PolicyProcess.step (.init 0) as = some s) {r : Nat} {tr : PolicyTransition}
    (htr : (trace PolicyProcess.step (.init 0) as)[r]? = some tr) : as[r]? = some tr.act := by
  have hacts := map_act_trace _ _ _ h
  have hr : ((trace PolicyProcess.step (.init 0) as).map (·.act))[r]? = some tr.act := by
    rw [List.getElem?_map, htr]
    rfl
  rwa [hacts] at hr

/-- The write of the example changes the table at position `i` and returns after that. -/
private theorem scopeChanged_example
    {i c : Nat} (h : exec PolicyProcess.step (.init 0) as = some s) (hlt : i < c)
    (hi : as[i]? = some (0, .write 0 "p1")) (hc : as[c]? = some (0, .clearCache 0))
    (hchange : ((trace PolicyProcess.step (.init 0) as)[i]?).map changesTable = some true)
    (hscope : ((trace PolicyProcess.step (.init 0) as)[c]?).bind
      (fun tr => (tr.pre.policy.writes[0]?).map (·.op.scope)) = some (some "files")) :
    ScopeChanged (trace PolicyProcess.step (.init 0) as) (some "files") i c := by
  refine ⟨0, ?_, ?_, hlt⟩
  · obtain ⟨tr, htr, hchange⟩ := Option.map_eq_some_iff.mp hchange
    have hact := (act_at h htr).symm.trans hi
    simp only [changesTable] at hchange
    split at hchange
    · rename_i op n version hwr
      split at hchange
      · rename_i t hres
        exact ⟨tr, "p1", _, version, t, htr, by rw [Option.some.inj hact], hwr, rfl, hres⟩
      · cases hchange
    · cases hchange
  · obtain ⟨tr, htr, hscope⟩ := Option.bind_eq_some_iff.mp hscope
    obtain ⟨wr, hwr, hscope⟩ := Option.map_eq_some_iff.mp hscope
    have hact := (act_at h htr).symm.trans hc
    exact ⟨tr, wr, htr, by rw [Option.some.inj hact], hwr, hscope⟩

private theorem startsAt_example {e j : Nat} (h : exec PolicyProcess.step (.init 0) as = some s)
    (hj : as[j]? = some (0, .evaluate filesParams))
    (hlen : ((trace PolicyProcess.step (.init 0) as)[j]?).map
      (fun tr => tr.pre.policy.evaluations.length) = some e) :
    StartsAt (trace PolicyProcess.step (.init 0) as) e j filesParams := by
  obtain ⟨tr, htr, hlen⟩ := Option.map_eq_some_iff.mp hlen
  have hact := (act_at h htr).symm.trans hj
  exact ⟨tr, htr, by rw [Option.some.inj hact], hlen⟩

/-- The run in which the set is created first fills the cache afresh: its reads come after its
    only statement. -/
private theorem fillsFresh_freshRun (hs : exec PolicyProcess.step (.init 0) freshRun = some s) :
    Along FillsFresh (trace PolicyProcess.step (.init 0) freshRun) := by
  intro xs x ys htrs e ev _ _ i c hchanged r scope rows hread
  have hact : ∀ (k : Nat) (tr : PolicyTransition), xs[k]? = some tr →
      freshRun[k]? = some tr.act := by
    intro k tr htr
    refine act_at hs ?_
    rw [htrs, List.getElem?_append_left (List.getElem?_eq_some_iff.mp htr).1]
    exact htr
  obtain ⟨_, ⟨w, ⟨tr, newId, wr, version, t, htr, hwrite, _⟩, _, _⟩, _⟩ := hchanged
  obtain ⟨tr', ev', htr', _, _, hread⟩ := hread
  have hstatement : i < 3 := by
    by_contra hle
    have hmem : tr.act ∈ freshRun.drop 3 := by
      refine List.mem_of_getElem? (i := i - 3) ?_
      rw [List.getElem?_drop, show 3 + (i - 3) = i by omega]
      exact hact i tr htr
    have hnone : ∀ a ∈ freshRun.drop 3, isStatement a.2 = false := by decide
    have hfalse := hnone tr.act hmem
    rw [hwrite] at hfalse
    cases hfalse
  have hafter : 3 ≤ r := by
    by_contra hgt
    have hmem : tr'.act ∈ freshRun.take 3 := by
      refine List.mem_of_getElem? (i := r) ?_
      rw [List.getElem?_take_of_lt (by omega)]
      exact hact r tr' htr'
    have hnone : ∀ a ∈ freshRun.take 3, isRead a.2 = false := by decide
    have hfalse := hnone tr'.act hmem
    cases hread with
    | inl hread | inr hread =>
      rw [hread.1] at hfalse
      cases hfalse
  omega

theorem evaluations_use_current_policies_freshRun :
    ∃ s policies,
      IsRun PolicyProcess.step (.init 0) (trace PolicyProcess.step (.init 0) freshRun) s ∧
      s.policy.evaluations[0]? = some ⟨filesParams, .done policies⟩ ∧
      ReadSince (trace PolicyProcess.step (.init 0) freshRun) 2 "files" policies := by
  have hdone : (exec PolicyProcess.step (.init 0) freshRun).bind
      (fun s => s.policy.evaluations[0]?) = some ⟨filesParams, .done [⟨"p1", some "files", 1,
        .active, ⟨[⟨"deny", none, ⟨none, none⟩, [], [], ⟨.deny, none⟩⟩]⟩⟩]⟩ := by
    rfl
  obtain ⟨s, hs, hdone⟩ := Option.bind_eq_some_iff.mp hdone
  have hrun := isRun_trace _ _ _ hs
  have hchanged : ScopeChanged (trace PolicyProcess.step (.init 0) freshRun) (some "files") 2 3 :=
    scopeChanged_example hs (by decide) rfl rfl (by decide +kernel) (by decide +kernel)
  have hstart : StartsAt (trace PolicyProcess.step (.init 0) freshRun) 0 4 filesParams :=
    startsAt_example hs rfl (by decide +kernel)
  exact ⟨s, _, hrun, hdone, evaluations_use_current_policies 0 _ s hrun (fillsFresh_freshRun hs)
    0 4 2 3 (some "files") filesParams _ hchanged hstart (by decide) (.inr rfl) hdone⟩

theorem stale_fill_survives_clear :
    ¬∀ s e j i c scope params policies,
      IsRun PolicyProcess.step (.init 0) (trace PolicyProcess.step (.init 0) staleRun) s →
      ScopeChanged (trace PolicyProcess.step (.init 0) staleRun) scope i c →
      StartsAt (trace PolicyProcess.step (.init 0) staleRun) e j params → c < j →
      (scope = none ∨ scope = params.serverId) →
      s.policy.evaluations[e]? = some ⟨params, .done policies⟩ →
      ReadSince (trace PolicyProcess.step (.init 0) staleRun) i (cacheKey params.serverId)
        policies := by
  have hdone : (exec PolicyProcess.step (.init 0) staleRun).bind
      (fun s => s.policy.evaluations[1]?) = some ⟨filesParams, .done []⟩ := by
    rfl
  obtain ⟨s, hs, hdone⟩ := Option.bind_eq_some_iff.mp hdone
  intro hall
  have hchanged : ScopeChanged (trace PolicyProcess.step (.init 0) staleRun) (some "files") 5 6 :=
    scopeChanged_example hs (by decide) rfl rfl (by decide +kernel) (by decide +kernel)
  have hstart : StartsAt (trace PolicyProcess.step (.init 0) staleRun) 1 8 filesParams :=
    startsAt_example hs rfl (by decide +kernel)
  obtain ⟨server, g, _, _, e, r, hr, tr, ev, htr, _, _, hact⟩ := hall s 1 8 5 6 (some "files")
    filesParams [] (isRun_trace _ _ _ hs) hchanged hstart (by decide) (.inr rfl) hdone
  -- no read is made after the statement
  have hmem : tr.act ∈ staleRun.drop 6 := by
    refine List.mem_of_getElem? (i := r - 6) ?_
    rw [List.getElem?_drop, show 6 + (r - 6) = r by omega]
    exact act_at hs htr
  have hnone : ∀ a ∈ staleRun.drop 6, isRead a.2 = false := by decide
  have hread := hnone tr.act hmem
  cases hact with
  | inl hact | inr hact =>
    rw [hact.1] at hread
    cases hread

end PetaCore
