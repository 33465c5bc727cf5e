import PetaCore.Core.ClientRequests
import PetaCore.ForStd.Noninterference
import PetaCore.Spec.Singleflight

/-!
# Cancelling one of several coalesced requests

A run of all clients' requests is compared with the run in which some of the requests were never
made. A request can reach the others in two ways: as the leader of a forward that they wait for,
whose signal is its own and which its client can cancel, and through the count of timeouts of
its server context.

## Key results

- `outcome_without`: requests that are not aborted or cancelled while they lead a forward for
  others, and that leave the count of timeouts alone, change no other request's outcome
- `cancelled_leader_fails_others`: a client cancels or disconnects, and the request of another
  one fails
-/

namespace PetaCore

open RequestSystem Noninterference

/-! ## The run without some requests -/

/-- The events of the other requests, and the answers to shared forwards. -/
def RequestEvent.isOther (gone : Nat → Bool) (e : RequestEvent) : Bool :=
  e.request?.all fun id => !gone id

/-- The events of a run in which some requests were never made. -/
def without (gone : Nat → Bool) (events : List RequestEvent) : List RequestEvent :=
  events.filter (·.isOther gone)

/-- The other participants of a forward, in the order of their entry. The first of them is the
    one that leads it in the run without. -/
def SharedForward.others (gone : Nat → Bool) (f : SharedForward) : List Nat :=
  f.participants.filter fun id => !gone id

/-- The participants of the forward of a key. -/
def participants? : Option SharedForward → List Nat
  | none => []
  | some f => f.participants

/-- The other participants of the forward of a key. -/
def others? (gone : Nat → Bool) : Option SharedForward → List Nat
  | none => []
  | some f => f.others gone

/-- Who takes part in a forward waits for it, and a forward that another request leads in the
    run without is not rejected for the signal of either leader, nor cancelled. -/
structure ForwardsOk (env : ForwardEnv) (gone : Nat → Bool) (s : RequestState) : Prop where
  waits : ∀ key f, s.inflight key = some f → ∀ id ∈ f.participants,
    ∃ r, s.requests id = some r ∧ r.phase = .waiting key
  led : ∀ key f, s.inflight key = some f → gone f.leader = true →
    ∀ id, (f.others gone).head? = some id →
      doomed env s f.leader = false ∧ doomed env s id = false ∧ f.cancelled = false

/-- A state of a run, and the state of the run without. -/
structure SameWithout (env : ForwardEnv) (gone : Nat → Bool) (s t : RequestState) : Prop where
  forwards : ForwardsOk env gone s
  requests : ∀ id, gone id = false → s.requests id = t.requests id
  inflight : ∀ key, others? gone (s.inflight key) = participants? (t.inflight key)
  cancelled : ∀ key f f', s.inflight key = some f → t.inflight key = some f' →
    f.cancelled = f'.cancelled
  timeoutCount : s.timeoutCount = t.timeoutCount

/-- The steps by which a request reaches others are left out. -/
def Considerate (env : ForwardEnv) (gone : Nat → Bool) (s : RequestState) : RequestEvent → Prop
  | .abort id => ∀ r key f, s.requests id = some r → r.aborted = false → r.phase = .waiting key →
    s.inflight key = some f → env.connection r.context = .sdkClient → gone f.leader = true →
    (f.leader = id → f.others gone = []) ∧ (f.others gone).head? ≠ some id
  | .cancel id => ∀ r key f, s.requests id = some r → r.phase = .waiting key →
    s.inflight key = some f → stops env r = true → gone f.leader = true →
    (f.leader = id → f.others gone = []) ∧ (f.others gone).head? ≠ some id
  | .start id (.miss lookupVersions) => gone id = false → ∀ r scopeIdentity f,
    s.requests id = some r → r.phase = .starting → r.request.scopeIdentity = some scopeIdentity →
    s.inflight (singleflightKey env.sha256 r.request scopeIdentity lookupVersions) = some f →
    gone f.leader = true →
    doomed env s f.leader = false ∧ f.cancelled = false ∧
      (f.others gone = [] → doomed env s id = false)
  | .reply key (.ok _) => ∀ f, s.inflight key = some f → gone f.leader = true →
    doomed env s f.leader = false → f.cancelled = false →
    (s.clearTimeout f.leader).timeoutCount =
      match (f.others gone).head? with
      | some id => (s.clearTimeout id).timeoutCount
      | none => s.timeoutCount
  | .replyOutside id (.ok _) => gone id = true → ∀ r, s.requests id = some r →
    r.phase = .forwarding false → rejects env r = false →
    (s.clearTimeout id).timeoutCount = s.timeoutCount
  | .resume id _ => gone id = true → ∀ r message, s.requests id = some r →
    r.phase ≠ .received (.error (.requestTimeout message))
  | _ => True

theorem SameWithout.init (env : ForwardEnv) (gone : Nat → Bool) :
    SameWithout env gone .init .init where
  forwards := ⟨(fun _ _ hf => by cases hf), (fun _ _ hf => by cases hf)⟩
  requests _ _ := rfl
  inflight _ := rfl
  cancelled _ _ _ hf := by cases hf
  timeoutCount := rfl

/-! ## Signals -/

section

variable {id : Nat} {key : String} {f f' : SharedForward} {r : ClientRequest}

variable {env : ForwardEnv} {gone : Nat → Bool} {s t : RequestState}

theorem requests_setRequest (s : RequestState) (id : Nat) (r : ClientRequest) (id' : Nat) :
    (s.setRequest id r).requests id' = if id' = id then some r else s.requests id' :=
  Function.update_apply s.requests id (some r) id'

theorem requests_settle (s : RequestState) (key : String) (f : SharedForward)
    (outcome : ForwardOutcome) (id : Nat) :
    (settle s key f outcome).requests id =
      if id ∈ f.participants then (s.requests id).map ({ · with phase := .received outcome })
      else s.requests id := rfl

theorem inflight_settle (s : RequestState) (key : String) (f : SharedForward)
    (outcome : ForwardOutcome) (key' : String) :
    (settle s key f outcome).inflight key' = if key' = key then none else s.inflight key' :=
  Function.update_apply s.inflight key none key'

theorem doomed_setRequest (s : RequestState) (id : Nat) (r : ClientRequest) (id' : Nat) :
    doomed env (s.setRequest id r) id' =
      if id' = id then rejects env r else doomed env s id' := by
  unfold doomed
  rw [requests_setRequest]
  split
  · rfl
  · rfl

/-- A new phase leaves the signals as they are. -/
theorem doomed_setPhase (r' : ClientRequest) (hr : s.requests id = some r)
    (haborted : r'.aborted = r.aborted) (hcontext : r'.context = r.context) (id' : Nat) :
    doomed env (s.setRequest id r') id' = doomed env s id' := by
  rw [doomed_setRequest]
  split
  · rename_i h
    simp [doomed, h, hr, rejects, haborted, hcontext]
  · rfl

theorem doomed_receive (ids : List Nat) (outcome : ForwardOutcome) (id : Nat) :
    doomed env (s.receive ids outcome) id = doomed env s id := by
  simp only [doomed, RequestState.receive]
  split
  · cases s.requests id with
    | none | some _ => rfl
  · rfl

theorem doomed_congr (hrequests : s.requests = t.requests) (id : Nat) :
    doomed env s id = doomed env t id := by
  unfold doomed
  rw [hrequests]

theorem SameWithout.doomed_eq (h : SameWithout env gone s t) (hid : gone id = false) :
    doomed env s id = doomed env t id := by
  unfold doomed
  rw [h.requests id hid]

/-! ## Shared forwards -/

theorem others_of_other_leader {f : SharedForward} (h : gone f.leader = false) :
    f.others gone = f.leader :: f.observers.filter (fun id => !gone id) := by
  simp [SharedForward.others, SharedForward.participants, h]

theorem gone_of_others_nil {f : SharedForward} (h : f.others gone = []) :
    gone f.leader = true := by
  cases hleader : gone f.leader with
  | true => rfl
  | false =>
    rw [others_of_other_leader hleader] at h
    cases h

theorem mem_others {f : SharedForward} :
    id ∈ f.others gone ↔ id ∈ f.participants ∧ gone id = false := by
  simp [SharedForward.others]

/-- Without the forward there is no other participant. -/
theorem SameWithout.others_nil (h : SameWithout env gone s t) {f : SharedForward}
    (hf : s.inflight key = some f) (hnone : t.inflight key = none) : f.others gone = [] := by
  have hsame := h.inflight key
  rw [hf, hnone] at hsame
  exact hsame

theorem SameWithout.others_eq (h : SameWithout env gone s t) (hf : s.inflight key = some f)
    (hf' : t.inflight key = some f') : f.others gone = f'.participants := by
  have hsame := h.inflight key
  rw [hf, hf'] at hsame
  exact hsame

theorem SameWithout.none_of_none (h : SameWithout env gone s t) (hnone : s.inflight key = none) :
    t.inflight key = none := by
  have hsame := h.inflight key
  rw [hnone] at hsame
  cases ht : t.inflight key with
  | none => rfl
  | some f' =>
    rw [ht] at hsame
    cases hsame

/-- Another request that leads a forward leads it in the run without. -/
theorem SameWithout.leader_eq (h : SameWithout env gone s t) (hf : s.inflight key = some f)
    (hf' : t.inflight key = some f') (hleader : gone f.leader = false) : f'.leader = f.leader := by
  have hothers := h.others_eq hf hf'
  rw [others_of_other_leader hleader] at hothers
  exact (List.cons.inj hothers).1.symm

/-- The leader of a forward in the run without is the first of the others. -/
theorem SameWithout.head_others (h : SameWithout env gone s t) (hf : s.inflight key = some f)
    (hf' : t.inflight key = some f') : (f.others gone).head? = some f'.leader := by
  rw [h.others_eq hf hf']
  rfl

theorem SameWithout.gone_leader (h : SameWithout env gone s t) (hf : s.inflight key = some f)
    (hf' : t.inflight key = some f') : gone f'.leader = false := by
  have hmem : f'.leader ∈ f.others gone := by
    rw [h.others_eq hf hf']
    exact List.mem_cons_self
  exact (mem_others.mp hmem).2

/-- Another request leads a forward in both runs or in neither, if a step with `P` finds it so
    that it is not the first after a gone leader. -/
theorem SameWithout.leads_iff (h : SameWithout env gone s t) (hf : s.inflight key = some f)
    (hf' : t.inflight key = some f') (hid : gone id = false) {P : Prop}
    (hhead : P → gone f.leader = true → (f.others gone).head? ≠ some id) :
    (f.leader = id ∧ P) ↔ (f'.leader = id ∧ P) := by
  cases hleader : gone f.leader with
  | false => rw [h.leader_eq hf hf' hleader]
  | true =>
    constructor
    · intro hleads
      rw [hleads.1, hid] at hleader
      cases hleader
    · intro hleads
      have hne := hhead hleads.2 hleader
      rw [h.head_others hf hf', hleads.1] at hne
      exact absurd rfl hne

/-- The forward of a key is rejected for a signal in both runs or in neither. -/
theorem SameWithout.doomed_leader (h : SameWithout env gone s t) (hf : s.inflight key = some f)
    (hf' : t.inflight key = some f') : doomed env s f.leader = doomed env t f'.leader := by
  cases hleader : gone f.leader with
  | false =>
    rw [h.leader_eq hf hf' hleader]
    exact h.doomed_eq hleader
  | true =>
    obtain ⟨hdoomed, hdoomed', _⟩ := h.forwards.led key f hf hleader _ (h.head_others hf hf')
    rw [hdoomed, ← h.doomed_eq (h.gone_leader hf hf'), hdoomed']

/-- A request that does not wait takes part in no forward. -/
theorem ForwardsOk.notMem (h : ForwardsOk env gone s) (hr : s.requests id = some r)
    (hfree : ∀ key, r.phase ≠ .waiting key) (key : String) (f : SharedForward)
    (hf : s.inflight key = some f) : id ∉ f.participants := by
  intro hmem
  obtain ⟨r', hr', hphase⟩ := h.waits key f hf id hmem
  rw [Option.some.inj (hr'.symm.trans hr)] at hphase
  exact hfree key hphase

/-! ## Steps of one request -/

variable {r' : ClientRequest}

/-- A request changes that still waits for the forward it takes part in. -/
theorem ForwardsOk.setRequest (h : ForwardsOk env gone s)
    (hphase : ∀ key f, s.inflight key = some f → id ∈ f.participants → r'.phase = .waiting key)
    (hsignal : ∀ key f, s.inflight key = some f → gone f.leader = true →
      ∀ first, (f.others gone).head? = some first → f.leader = id ∨ first = id →
        rejects env r' = false) :
    ForwardsOk env gone (s.setRequest id r') where
  waits := by
    intro key f hf id' hmem
    by_cases hid : id' = id
    · subst hid
      exact ⟨r', by rw [requests_setRequest, if_pos rfl], hphase key f hf hmem⟩
    · obtain ⟨r, hr, hwaiting⟩ := h.waits key f hf id' hmem
      exact ⟨r, by rw [requests_setRequest, if_neg hid, hr], hwaiting⟩
  led := by
    intro key f hf hleader first hfirst
    obtain ⟨hled, hled', hcancelled⟩ := h.led key f hf hleader first hfirst
    rw [doomed_setRequest, doomed_setRequest]
    refine ⟨?_, ?_, hcancelled⟩
    · split
      · exact hsignal key f hf hleader first hfirst (Or.inl ‹_›)
      · exact hled
    · split
      · exact hsignal key f hf hleader first hfirst (Or.inr ‹_›)
      · exact hled'

/-- A request that takes part in no forward may change as it likes. -/
theorem ForwardsOk.setFree (h : ForwardsOk env gone s)
    (hfree : ∀ key f, s.inflight key = some f → id ∉ f.participants) (r' : ClientRequest) :
    ForwardsOk env gone (s.setRequest id r') := by
  apply h.setRequest
  · intro key f hf hmem
    exact absurd hmem (hfree key f hf)
  · intro key f hf _ first hfirst hid
    cases hid with
    | inl hleader => exact absurd (hleader ▸ List.mem_cons_self) (hfree key f hf)
    | inr hfirst' =>
      have hmem := (mem_others.mp (List.mem_of_head? hfirst)).1
      exact absurd (hfirst' ▸ hmem) (hfree key f hf)

/-- A gone request changes in one of the runs. -/
theorem SameWithout.setGone (h : SameWithout env gone s t) (hid : gone id = true)
    (hforwards : ForwardsOk env gone (s.setRequest id r')) :
    SameWithout env gone (s.setRequest id r') t where
  forwards := hforwards
  requests := by
    intro id' hid'
    have hne : id' ≠ id := by
      intro heq
      rw [heq, hid] at hid'
      cases hid'
    rw [requests_setRequest, if_neg hne]
    exact h.requests id' hid'
  inflight := h.inflight
  cancelled := h.cancelled
  timeoutCount := h.timeoutCount

/-- Another request changes in both runs. -/
theorem SameWithout.setBoth (h : SameWithout env gone s t)
    (hforwards : ForwardsOk env gone (s.setRequest id r')) :
    SameWithout env gone (s.setRequest id r') (t.setRequest id r') where
  forwards := hforwards
  requests := by
    intro id' hid'
    rw [requests_setRequest, requests_setRequest, h.requests id' hid']
  inflight := h.inflight
  cancelled := h.cancelled
  timeoutCount := h.timeoutCount

/-- The counts of timeouts change alike in both runs. -/
theorem SameWithout.setTimeouts (h : SameWithout env gone s t) {c c' : String → Nat}
    (hc : c = c') :
    SameWithout env gone { s with timeoutCount := c } { t with timeoutCount := c' } where
  forwards := ⟨h.forwards.waits, h.forwards.led⟩
  requests := h.requests
  inflight := h.inflight
  cancelled := h.cancelled
  timeoutCount := hc

/-! ## Steps of a forward -/

variable {outcome : ForwardOutcome}

/-- A forward that is there after another one has settled. -/
theorem inflight_of_settle {key key' : String}
    (hf' : (settle s key f outcome).inflight key' = some f') :
    key' ≠ key ∧ s.inflight key' = some f' := by
  rw [inflight_settle] at hf'
  split at hf'
  · cases hf'
  · exact ⟨‹_›, hf'⟩

theorem ForwardsOk.settle (h : ForwardsOk env gone s) {key : String} {f : SharedForward}
    (hf : s.inflight key = some f) (outcome : ForwardOutcome) :
    ForwardsOk env gone (settle s key f outcome) where
  waits := by
    intro key' f' hf' id hmem
    obtain ⟨hne, hf''⟩ := inflight_of_settle hf'
    obtain ⟨r, hr, hphase⟩ := h.waits key' f' hf'' id hmem
    -- a request waits for one forward only
    have hnotMem : id ∉ f.participants := by
      intro hmem'
      obtain ⟨r', hr', hphase'⟩ := h.waits key f hf id hmem'
      rw [Option.some.inj (hr'.symm.trans hr), hphase] at hphase'
      exact hne (RequestPhase.waiting.inj hphase')
    exact ⟨r, by rw [requests_settle, if_neg hnotMem, hr], hphase⟩
  led := by
    intro key' f' hf' hleader first hfirst
    obtain ⟨hne, hf''⟩ := inflight_of_settle hf'
    have hdoomed : ∀ id, doomed env (RequestSystem.settle s key f outcome) id = doomed env s id :=
      fun id => (doomed_congr rfl id).trans (doomed_receive f.participants outcome id)
    rw [hdoomed, hdoomed]
    exact h.led key' f' hf'' hleader first hfirst

/-- A forward settles that only gone requests wait for. -/
theorem SameWithout.settleGone (h : SameWithout env gone s t) {f : SharedForward}
    (hf : s.inflight key = some f) (hothers : f.others gone = []) (outcome : ForwardOutcome) :
    SameWithout env gone (settle s key f outcome) t where
  forwards := h.forwards.settle hf outcome
  requests := by
    intro id hid
    have hnotMem : id ∉ f.participants := by
      intro hmem
      have hother := mem_others.mpr ⟨hmem, hid⟩
      rw [hothers] at hother
      cases hother
    rw [requests_settle, if_neg hnotMem]
    exact h.requests id hid
  inflight := by
    intro key'
    rw [inflight_settle]
    split
    · rename_i hkey
      rw [hkey, ← h.inflight key, hf]
      exact hothers.symm
    · exact h.inflight key'
  cancelled := by
    intro key' g g' hg hg'
    exact h.cancelled key' g g' (inflight_of_settle hg).2 hg'
  timeoutCount := h.timeoutCount

/-- A forward settles in both runs. -/
theorem SameWithout.settleBoth (h : SameWithout env gone s t) (hf : s.inflight key = some f)
    (hf' : t.inflight key = some f') (outcome : ForwardOutcome) :
    SameWithout env gone (settle s key f outcome) (settle t key f' outcome) where
  forwards := h.forwards.settle hf outcome
  requests := by
    intro id hid
    have hmem : id ∈ f.participants ↔ id ∈ f'.participants := by
      rw [← h.others_eq hf hf', mem_others]
      exact ⟨fun hmem => ⟨hmem, hid⟩, fun hmem => hmem.1⟩
    rw [requests_settle, requests_settle, h.requests id hid]
    exact if_congr hmem rfl rfl
  inflight := by
    intro key'
    rw [inflight_settle, inflight_settle]
    split
    · rfl
    · exact h.inflight key'
  cancelled := by
    intro key' g g' hg hg'
    exact h.cancelled key' g g' (inflight_of_settle hg).2 (inflight_of_settle hg').2
  timeoutCount := h.timeoutCount

/-! ## Entering the registry -/

/-- The participants of the forward of a key after a request has entered. -/
theorem inflight_execute (gone : Nat → Bool) (s : RequestState) (id : Nat) (r : ClientRequest)
    (key : String) :
    ∃ g, (execute s id r key).inflight key = some g ∧
      g.participants = participants? (s.inflight key) ++ [id] ∧
      g.others gone = others? gone (s.inflight key) ++ [id].filter (fun id => !gone id) := by
  unfold execute
  cases hf : s.inflight key with
  | none => exact ⟨⟨id, [], false⟩, Function.update_self _ _ _, rfl, rfl⟩
  | some f =>
    refine ⟨_, Function.update_self _ _ _, rfl, ?_⟩
    exact List.filter_append (f.leader :: f.observers) [id]

theorem inflight_execute_ne (s : RequestState) (id : Nat) (r : ClientRequest) {key key' : String}
    (hne : key' ≠ key) : (execute s id r key).inflight key' = s.inflight key' :=
  Function.update_of_ne hne _ _

theorem requests_execute (s : RequestState) (id : Nat) (r : ClientRequest) (key : String)
    (id' : Nat) :
    (execute s id r key).requests id' =
      if id' = id then some { r with phase := .waiting key } else s.requests id' :=
  requests_setRequest s id _ id'

theorem doomed_execute (hr : s.requests id = some r) (key : String) (id' : Nat) :
    doomed env (execute s id r key) id' = doomed env s id' := by
  exact doomed_setPhase { r with phase := .waiting key } hr rfl rfl id'

/-- The leader of a forward stays when a request enters. -/
theorem leader_execute {f g : SharedForward} (hf : s.inflight key = some f)
    (hg : (execute s id r key).inflight key = some g) :
    g.leader = f.leader ∧ g.cancelled = f.cancelled := by
  simp only [execute, hf, Function.update_self] at hg
  cases hg
  exact ⟨rfl, rfl⟩

/-- A forward that a request has just called its factory for. -/
theorem cancelled_execute_of_none {g : SharedForward} (hf : s.inflight key = none)
    (hg : (execute s id r key).inflight key = some g) : g.cancelled = false := by
  simp only [execute, hf, Function.update_self] at hg
  cases hg
  rfl

theorem ForwardsOk.execute (h : ForwardsOk env gone s) {id : Nat} {r : ClientRequest}
    (hr : s.requests id = some r) (hstarting : r.phase = .starting) (key : String)
    (hled : ∀ f, s.inflight key = some f → f.others gone = [] → gone id = false →
      doomed env s f.leader = false ∧ doomed env s id = false ∧ f.cancelled = false) :
    ForwardsOk env gone (execute s id r key) where
  waits := by
    intro key' f' hf' id' hmem
    rw [requests_execute]
    by_cases hid : id' = id
    · rw [if_pos hid]
      refine ⟨_, rfl, ?_⟩
      -- the request takes part in no other forward
      by_cases hkey : key' = key
      · rw [hkey]
      · rw [inflight_execute_ne s id r hkey] at hf'
        obtain ⟨r', hr', hwaiting⟩ := h.waits key' f' hf' id' hmem
        rw [hid, hr] at hr'
        rw [← Option.some.inj hr', hstarting] at hwaiting
        cases hwaiting
    · rw [if_neg hid]
      by_cases hkey : key' = key
      · obtain ⟨g, hg, hparticipants, _⟩ := inflight_execute gone s id r key
        rw [hkey, hg] at hf'
        cases hf'
        rw [hparticipants, List.mem_append] at hmem
        cases hmem with
        | inr hmem => exact absurd (List.mem_singleton.mp hmem) hid
        | inl hmem =>
          cases hf : s.inflight key with
          | none =>
            rw [hf] at hmem
            cases hmem
          | some f =>
            rw [hf] at hmem
            rw [hkey]
            exact h.waits key f hf id' hmem
      · rw [inflight_execute_ne s id r hkey] at hf'
        exact h.waits key' f' hf' id' hmem
  led := by
    intro key' f' hf' hleader first hfirst
    rw [doomed_execute hr, doomed_execute hr]
    by_cases hkey : key' = key
    · obtain ⟨g, hg, hparticipants, hothers⟩ := inflight_execute gone s id r key
      rw [hkey, hg] at hf'
      obtain rfl := Option.some.inj hf'
      cases hf : s.inflight key with
      | none =>
        -- the request leads, and is gone
        rw [hf] at hparticipants
        have hid : g.leader = id := (List.cons.inj hparticipants).1
        rw [hf, ← hid] at hothers
        rw [hothers] at hfirst
        simp [others?, hleader] at hfirst
      | some f =>
        obtain ⟨hleader', hcancelled⟩ := leader_execute hf hg
        rw [hf] at hothers
        rw [hothers] at hfirst
        rw [hcancelled]
        rw [hleader'] at hleader ⊢
        cases hrest : f.others gone with
        | cons first' rest =>
          have heq : first' = first := by
            rw [others?, hrest] at hfirst
            exact Option.some.inj hfirst
          exact h.led key f hf hleader first (by rw [hrest, ← heq]; rfl)
        | nil =>
          have hnew : gone id = false ∧ id = first := by
            rw [others?, hrest] at hfirst
            cases hid : gone id with
            | true => simp [hid] at hfirst
            | false =>
              simp only [hid, List.nil_append, Bool.not_false, List.filter_cons_of_pos,
                List.head?_cons] at hfirst
              exact ⟨rfl, Option.some.inj hfirst⟩
          rw [← hnew.2]
          exact hled f hf hrest hnew.1
    · rw [inflight_execute_ne s id r hkey] at hf'
      exact h.led key' f' hf' hleader first hfirst

/-- A gone request enters. -/
theorem SameWithout.executeGone (h : SameWithout env gone s t) (hid : gone id = true)
    (hr : s.requests id = some r) (hstarting : r.phase = .starting) (key : String) :
    SameWithout env gone (execute s id r key) t where
  forwards := by
    refine h.forwards.execute hr hstarting key ?_
    intro _ _ _ hother
    cases hid.symm.trans hother
  requests := by
    intro id' hid'
    have hne : id' ≠ id := by
      intro heq
      rw [heq, hid] at hid'
      cases hid'
    rw [requests_execute, if_neg hne]
    exact h.requests id' hid'
  inflight := by
    intro key'
    by_cases hkey : key' = key
    · obtain ⟨g, hg, _, hothers⟩ := inflight_execute gone s id r key
      rw [hkey, hg, ← h.inflight key]
      show g.others gone = _
      rw [hothers]
      simp [hid]
    · rw [inflight_execute_ne s id r hkey]
      exact h.inflight key'
  cancelled := by
    intro key' g g' hg hg'
    by_cases hkey : key' = key
    · rw [hkey] at hg hg'
      cases hf : s.inflight key with
      | none => cases (h.none_of_none hf).symm.trans hg'
      | some f =>
        rw [(leader_execute hf hg).2]
        exact h.cancelled key f g' hf hg'
    · rw [inflight_execute_ne s id r hkey] at hg
      exact h.cancelled key' g g' hg hg'
  timeoutCount := h.timeoutCount

/-- Another request enters in both runs. -/
theorem SameWithout.executeBoth (h : SameWithout env gone s t) (hid : gone id = false)
    (hforwards : ForwardsOk env gone (execute s id r key))
    (hnew : ∀ f, s.inflight key = some f → f.others gone = [] → f.cancelled = false) :
    SameWithout env gone (execute s id r key) (execute t id r key) where
  forwards := hforwards
  requests := by
    intro id' hid'
    rw [requests_execute, requests_execute, h.requests id' hid']
  inflight := by
    intro key'
    by_cases hkey : key' = key
    · obtain ⟨g, hg, _, hothers⟩ := inflight_execute gone s id r key
      obtain ⟨g', hg', hparticipants, _⟩ := inflight_execute gone t id r key
      rw [hkey, hg, hg']
      show g.others gone = g'.participants
      rw [hothers, hparticipants, h.inflight key]
      simp [hid]
    · rw [inflight_execute_ne s id r hkey, inflight_execute_ne t id r hkey]
      exact h.inflight key'
  cancelled := by
    intro key' g g' hg hg'
    by_cases hkey : key' = key
    · rw [hkey] at hg hg'
      cases hf : s.inflight key with
      | none =>
        rw [cancelled_execute_of_none hf hg, cancelled_execute_of_none (h.none_of_none hf) hg']
      | some f =>
        rw [(leader_execute hf hg).2]
        cases hf' : t.inflight key with
        | none =>
          rw [cancelled_execute_of_none hf' hg']
          exact hnew f hf (h.others_nil hf hf')
        | some f' =>
          rw [(leader_execute hf' hg').2]
          exact h.cancelled key f f' hf hf'
    · rw [inflight_execute_ne s id r hkey] at hg
      rw [inflight_execute_ne t id r hkey] at hg'
      exact h.cancelled key' g g' hg hg'
  timeoutCount := h.timeoutCount

/-! ## Aborted and cancelled requests -/

theorem sdkClient_of_rejects (h : rejects env r = true) :
    env.connection r.context = .sdkClient := by
  simp only [rejects, Bool.and_eq_true, beq_iff_eq] at h
  exact h.2

/-- The signal of a request is aborted. The forward of others does not hang on it. -/
theorem ForwardsOk.abort (h : ForwardsOk env gone s) (hr : s.requests id = some r)
    (hok : ∀ key f, s.inflight key = some f → r.phase = .waiting key →
      env.connection r.context = .sdkClient → gone f.leader = true →
      (f.leader = id → f.others gone = []) ∧ (f.others gone).head? ≠ some id) :
    ForwardsOk env gone (s.setRequest id r.abort) := by
  have hphase : ∀ key f, s.inflight key = some f → id ∈ f.participants →
      r.phase = .waiting key := by
    intro key f hf hmem
    obtain ⟨r', hr', hwaiting⟩ := h.waits key f hf id hmem
    rw [Option.some.inj (hr'.symm.trans hr)] at hwaiting
    exact hwaiting
  refine h.setRequest hphase ?_
  intro key f hf hleader first hfirst hid
  cases hrejects : rejects env r.abort with
  | false => rfl
  | true =>
    have hsdk : env.connection r.context = .sdkClient :=
      sdkClient_of_rejects (r := r.abort) hrejects
    cases hid with
    | inl hid =>
      have hmem : id ∈ f.participants := hid ▸ List.mem_cons_self
      rw [(hok key f hf (hphase key f hf hmem) hsdk hleader).1 hid] at hfirst
      cases hfirst
    | inr hid =>
      rw [hid] at hfirst
      have hmem := (mem_others.mp (List.mem_of_head? hfirst)).1
      exact absurd hfirst (hok key f hf (hphase key f hf hmem) hsdk hleader).2

/-- The signal of a gone request is aborted. -/
theorem SameWithout.abortGone (h : SameWithout env gone s t) (hid : gone id = true)
    (hok : Considerate env gone s (.abort id)) : SameWithout env gone (abort env s id) t := by
  unfold RequestSystem.abort
  split
  · exact h
  rename_i r hr
  split
  · exact h
  rename_i haborted
  have hok' := fun key f hf hphase hsdk hleader =>
    hok r key f hr (Bool.eq_false_iff.mpr haborted) hphase hf hsdk hleader
  have habort := h.setGone hid (h.forwards.abort hr hok')
  cases hphase : r.phase with
  | finished outcome => exact h
  | starting | received _ => exact habort
  | forwarding cancelled =>
    have hfree := h.forwards.notMem hr (by simp [hphase])
    dsimp only
    split
    · exact h.setGone hid (h.forwards.setFree hfree _)
    · exact habort
  | waiting key =>
    dsimp only
    cases hf : s.inflight key with
    | none => exact habort
    | some f =>
      dsimp only
      split
      · rename_i hleads
        have hleader : gone f.leader = true := hleads.1 ▸ hid
        have hothers :=
          (hok' key f hf hphase (sdkClient_of_rejects (r := r.abort) hleads.2) hleader).1 hleads.1
        exact habort.settleGone hf hothers (.error env.abortError)
      · exact habort

/-- The signal of another request is aborted in both runs. -/
theorem SameWithout.abortBoth (h : SameWithout env gone s t) (hid : gone id = false)
    (hok : Considerate env gone s (.abort id)) :
    SameWithout env gone (abort env s id) (abort env t id) := by
  unfold RequestSystem.abort
  rw [← h.requests id hid]
  split
  · exact h
  rename_i r hr
  split
  · exact h
  rename_i haborted
  have hok' := fun key f hf hphase hsdk hleader =>
    hok r key f hr (Bool.eq_false_iff.mpr haborted) hphase hf hsdk hleader
  have habort := h.setBoth (h.forwards.abort hr hok')
  cases hphase : r.phase with
  | finished outcome => exact h
  | starting | received _ => exact habort
  | forwarding cancelled =>
    have hfree := h.forwards.notMem hr (by simp [hphase])
    dsimp only
    split
    · exact h.setBoth (h.forwards.setFree hfree _)
    · exact habort
  | waiting key =>
    dsimp only
    cases hf : s.inflight key with
    | none =>
      rw [h.none_of_none hf]
      exact habort
    | some f =>
      dsimp only
      cases hf' : t.inflight key with
      | none =>
        -- no other request waits for this forward, and its leader is gone
        have hleader := gone_of_others_nil (h.others_nil hf hf')
        rw [if_neg]
        · exact habort
        · intro hleads
          rw [hleads.1, hid] at hleader
          cases hleader
      | some f' =>
        have hleads := h.leads_iff hf hf' hid (P := rejects env r.abort = true)
          (fun hrejects hleader =>
            (hok' key f hf hphase (sdkClient_of_rejects (r := r.abort) hrejects) hleader).2)
        dsimp only
        by_cases hcase : f.leader = id ∧ rejects env r.abort = true
        · rw [if_pos hcase, if_pos (hleads.mp hcase)]
          exact habort.settleBoth hf hf' (.error env.abortError)
        · rw [if_neg hcase, if_neg (hcase ∘ hleads.mpr)]
          exact habort

/-- The server stops work on a forward that no other request waits for behind a gone leader. -/
theorem ForwardsOk.cancelForward (h : ForwardsOk env gone s) {f : SharedForward}
    (hf : s.inflight key = some f) (hothers : gone f.leader = true → f.others gone = []) :
    ForwardsOk env gone
      { s with inflight := Function.update s.inflight key (some { f with cancelled := true }) } where
  waits := by
    intro key' f' hf' id hmem
    simp only [Function.update_apply] at hf'
    split at hf'
    · rename_i hkey
      cases hf'
      rw [hkey]
      exact h.waits key f hf id hmem
    · exact h.waits key' f' hf' id hmem
  led := by
    intro key' f' hf' hleader first hfirst
    simp only [Function.update_apply] at hf'
    split at hf'
    · cases hf'
      have hnil : (f.others gone).head? = some first := hfirst
      rw [hothers hleader] at hnil
      cases hnil
    · exact h.led key' f' hf' hleader first hfirst

/-- A gone request is cancelled. -/
theorem SameWithout.cancelGone (h : SameWithout env gone s t) (hid : gone id = true)
    (hok : Considerate env gone s (.cancel id)) : SameWithout env gone (cancel env s id) t := by
  unfold cancel
  split
  · exact h
  rename_i r hr
  split
  · rename_i cancelled hphase
    split
    · exact h.setGone hid (h.forwards.setFree (h.forwards.notMem hr (by simp [hphase])) _)
    · exact h
  · rename_i key hphase
    cases hf : s.inflight key with
    | none => exact h
    | some f =>
      dsimp only
      split
      · rename_i hleads
        have hleader : gone f.leader = true := hleads.1 ▸ hid
        have hothers := (hok r key f hr hphase hf hleads.2 hleader).1 hleads.1
        refine ⟨h.forwards.cancelForward hf (fun _ => hothers), h.requests, ?_, ?_,
          h.timeoutCount⟩
        · intro key'
          show others? gone (Function.update s.inflight key _ key') = _
          rw [Function.update_apply]
          split
          · rename_i hkey
            rw [hkey, ← h.inflight key, hf]
            rfl
          · exact h.inflight key'
        · intro key' g g' hg hg'
          simp only [Function.update_apply] at hg
          split at hg
          · -- the run without has no forward of this key
            rename_i hkey
            rw [hkey] at hg'
            have hsome := h.others_eq hf hg'
            rw [hothers] at hsome
            cases hsome
          · exact h.cancelled key' g g' hg hg'
      · exact h
  · exact h

/-- Another request is cancelled in both runs. -/
theorem SameWithout.cancelBoth (h : SameWithout env gone s t) (hid : gone id = false)
    (hok : Considerate env gone s (.cancel id)) :
    SameWithout env gone (cancel env s id) (cancel env t id) := by
  unfold cancel
  rw [← h.requests id hid]
  split
  · exact h
  rename_i r hr
  split
  · rename_i cancelled hphase
    split
    · exact h.setBoth (h.forwards.setFree (h.forwards.notMem hr (by simp [hphase])) _)
    · exact h
  · rename_i key hphase
    cases hf : s.inflight key with
    | none =>
      rw [h.none_of_none hf]
      exact h
    | some f =>
      dsimp only
      cases hf' : t.inflight key with
      | none =>
        have hleader := gone_of_others_nil (h.others_nil hf hf')
        rw [if_neg]
        · exact h
        · intro hleads
          rw [hleads.1, hid] at hleader
          cases hleader
      | some f' =>
        have hleads := h.leads_iff hf hf' hid (P := stops env r = true)
          (fun hstops hleader => (hok r key f hr hphase hf hstops hleader).2)
        dsimp only
        by_cases hcase : f.leader = id ∧ stops env r = true
        · rw [if_pos hcase, if_pos (hleads.mp hcase)]
          have hnot : gone f.leader = true → f.others gone = [] := by
            intro hleader
            rw [hcase.1, hid] at hleader
            cases hleader
          refine ⟨h.forwards.cancelForward hf hnot, h.requests, ?_, ?_, h.timeoutCount⟩
          · intro key'
            show others? gone (Function.update s.inflight key _ key') =
              participants? (Function.update t.inflight key _ key')
            rw [Function.update_apply, Function.update_apply]
            split
            · show f.others gone = f'.participants
              exact h.others_eq hf hf'
            · exact h.inflight key'
          · intro key' g g' hg hg'
            simp only [Function.update_apply] at hg hg'
            split at hg
            · rename_i hkey
              rw [if_pos hkey] at hg'
              rw [← Option.some.inj hg, ← Option.some.inj hg']
            · rename_i hkey
              rw [if_neg hkey] at hg'
              exact h.cancelled key' g g' hg hg'
        · rw [if_neg hcase, if_neg (hcase ∘ hleads.mpr)]
          exact h
  · exact h

/-! ## Answers -/

theorem inflight_clearTimeout (s : RequestState) (id : Nat) :
    (s.clearTimeout id).inflight = s.inflight := by
  unfold RequestState.clearTimeout
  split
  · rfl
  · rfl

theorem clearTimeout_eq (s : RequestState) (id : Nat) :
    s.clearTimeout id = { s with timeoutCount := (s.clearTimeout id).timeoutCount } := by
  unfold RequestState.clearTimeout
  split
  · rfl
  · rfl

/-- The count that the same request resets. -/
theorem SameWithout.timeoutCount_clear (h : SameWithout env gone s t) (hid : gone id = false) :
    (s.clearTimeout id).timeoutCount = (t.clearTimeout id).timeoutCount := by
  unfold RequestState.clearTimeout
  rw [← h.requests id hid]
  split
  · show Function.update s.timeoutCount _ 0 = Function.update t.timeoutCount _ 0
    rw [h.timeoutCount]
  · exact h.timeoutCount

/-- The downstream server answers a shared forward. -/
theorem SameWithout.reply (h : SameWithout env gone s t) {key : String}
    (hok : Considerate env gone s (.reply key outcome)) :
    SameWithout env gone (reply env s key outcome) (reply env t key outcome) := by
  unfold RequestSystem.reply
  cases hf : s.inflight key with
  | none =>
    rw [h.none_of_none hf]
    exact h
  | some f =>
    dsimp only
    cases hf' : t.inflight key with
    | none =>
      have hothers := h.others_nil hf hf'
      dsimp only
      split
      · exact h
      · rename_i hdoomed
        cases outcome with
        | error error => exact h.settleGone hf hothers _
        | ok result =>
          dsimp only
          split
          · exact h
          rename_i hcancelled
          have hcount := hok f hf (gone_of_others_nil hothers) (Bool.eq_false_iff.mpr hdoomed)
            (Bool.eq_false_iff.mpr hcancelled)
          rw [hothers] at hcount
          have hcleared := h.setTimeouts (hcount.trans h.timeoutCount)
          rw [← clearTimeout_eq] at hcleared
          exact hcleared.settleGone (inflight_clearTimeout s f.leader ▸ hf) hothers _
    | some f' =>
      dsimp only
      rw [← h.doomed_leader hf hf']
      split
      · exact h
      · rename_i hdoomed
        cases outcome with
        | error error => exact h.settleBoth hf hf' _
        | ok result =>
          dsimp only
          rw [← h.cancelled key f f' hf hf']
          split
          · exact h
          rename_i hcancelled
          have hcount : (s.clearTimeout f.leader).timeoutCount =
              (t.clearTimeout f'.leader).timeoutCount := by
            cases hleader : gone f.leader with
            | false =>
              rw [h.leader_eq hf hf' hleader]
              exact h.timeoutCount_clear hleader
            | true =>
              have hcount := hok f hf hleader (Bool.eq_false_iff.mpr hdoomed)
                (Bool.eq_false_iff.mpr hcancelled)
              rw [h.head_others hf hf'] at hcount
              exact hcount.trans (h.timeoutCount_clear (h.gone_leader hf hf'))
          have hcleared := h.setTimeouts hcount
          rw [← clearTimeout_eq, ← clearTimeout_eq] at hcleared
          exact hcleared.settleBoth (inflight_clearTimeout s f.leader ▸ hf)
            (inflight_clearTimeout t f'.leader ▸ hf') _

/-- The server answers a shared forward that it has stopped work on. -/
theorem SameWithout.replyCancelled (h : SameWithout env gone s t) (key : String)
    (error : ForwardError) :
    SameWithout env gone (replyCancelled s key error) (replyCancelled t key error) := by
  unfold RequestSystem.replyCancelled
  cases hf : s.inflight key with
  | none =>
    rw [h.none_of_none hf]
    exact h
  | some f =>
    dsimp only
    cases hf' : t.inflight key with
    | none =>
      dsimp only
      split
      · exact h.settleGone hf (h.others_nil hf hf') _
      · exact h
    | some f' =>
      dsimp only
      rw [← h.cancelled key f f' hf hf']
      split
      · exact h.settleBoth hf hf' _
      · exact h

/-- A shared forward was sent with an aborted signal. -/
theorem SameWithout.rejectAborted (h : SameWithout env gone s t) (key : String) :
    SameWithout env gone (rejectAborted env s key) (rejectAborted env t key) := by
  unfold RequestSystem.rejectAborted
  cases hf : s.inflight key with
  | none =>
    rw [h.none_of_none hf]
    exact h
  | some f =>
    dsimp only
    cases hf' : t.inflight key with
    | none =>
      dsimp only
      split
      · exact h.settleGone hf (h.others_nil hf hf') _
      · exact h
    | some f' =>
      dsimp only
      rw [← h.doomed_leader hf hf']
      split
      · exact h.settleBoth hf hf' _
      · exact h

/-! ## Runs -/

/-- What a handler makes of a settled promise does not depend on which run it is in. -/
theorem SameWithout.resumeBoth (h : SameWithout env gone s t) (hid : gone id = false)
    (ping : PingReply) : SameWithout env gone (resume s id ping) (resume t id ping) := by
  unfold resume
  rw [← h.requests id hid]
  split
  · exact h
  rename_i r hr
  split
  · rename_i result hphase
    exact h.setBoth (h.forwards.setFree (h.forwards.notMem hr (by simp [hphase])) _)
  · rename_i error hphase
    have hfree := h.forwards.notMem hr (by simp [hphase])
    rw [← h.timeoutCount]
    exact (h.setBoth (h.forwards.setFree hfree _)).setTimeouts rfl
  · exact h

/-- A gone request that has no timeout to record leaves the counts as they are. -/
theorem SameWithout.resumeGone (h : SameWithout env gone s t) (hid : gone id = true)
    {ping : PingReply} (hok : Considerate env gone s (.resume id ping)) :
    SameWithout env gone (resume s id ping) t := by
  unfold resume
  split
  · exact h
  rename_i r hr
  split
  · rename_i result hphase
    exact h.setGone hid (h.forwards.setFree (h.forwards.notMem hr (by simp [hphase])) _)
  · rename_i error hphase
    have hfree := h.forwards.notMem hr (by simp [hphase])
    cases error with
    | requestTimeout message => exact absurd hphase (hok hid r message hr)
    | other message =>
      have hset := h.setGone hid (h.forwards.setFree hfree { r with
        phase := .finished (.error (.other message)) })
      exact hset.setTimeouts
        ((Function.update_eq_self r.context s.timeoutCount).trans h.timeoutCount)
  · exact h

theorem SameWithout.startBoth (h : SameWithout env gone s t) (hid : gone id = false)
    {answer : LookupAnswer} (hok : Considerate env gone s (.start id answer)) :
    SameWithout env gone (start env s id answer) (start env t id answer) := by
  unfold start
  rw [← h.requests id hid]
  split
  · exact h
  rename_i r hr
  split
  iterate 2
    · rename_i hphase
      exact h.setBoth (h.forwards.setFree (h.forwards.notMem hr (by simp [hphase])) _)
  · rename_i lookupVersions hphase
    cases hidentity : r.request.scopeIdentity with
    | none => exact h.setBoth (h.forwards.setFree (h.forwards.notMem hr (by simp [hphase])) _)
    | some scopeIdentity =>
      refine h.executeBoth hid (h.forwards.execute hr hphase _ ?_) ?_
      · intro f hf hothers _
        obtain ⟨hleader, hcancelled, hother⟩ :=
          hok hid r scopeIdentity f hr hphase hidentity hf (gone_of_others_nil hothers)
        exact ⟨hleader, hother hothers, hcancelled⟩
      · intro f hf hothers
        exact (hok hid r scopeIdentity f hr hphase hidentity hf (gone_of_others_nil hothers)).2.1
  · exact h

theorem SameWithout.startGone (h : SameWithout env gone s t) (hid : gone id = true)
    (answer : LookupAnswer) : SameWithout env gone (start env s id answer) t := by
  unfold start
  split
  · exact h
  rename_i r hr
  split
  iterate 2
    · rename_i hphase
      exact h.setGone hid (h.forwards.setFree (h.forwards.notMem hr (by simp [hphase])) _)
  · rename_i lookupVersions hphase
    cases hidentity : r.request.scopeIdentity with
    | none =>
      exact h.setGone hid (h.forwards.setFree (h.forwards.notMem hr (by simp [hphase])) _)
    | some scopeIdentity => exact h.executeGone hid hr hphase _
  · exact h

theorem ForwardsOk.setArrived (h : ForwardsOk env gone s) (hnone : s.requests id = none)
    (r' : ClientRequest) : ForwardsOk env gone (s.setRequest id r') := by
  apply h.setFree
  intro key f hf hmem
  obtain ⟨r, hr, _⟩ := h.waits key f hf id hmem
  cases hnone.symm.trans hr

theorem SameWithout.replyOutsideBoth (h : SameWithout env gone s t) (hid : gone id = false)
    (outcome : ForwardOutcome) :
    SameWithout env gone (replyOutside env s id outcome) (replyOutside env t id outcome) := by
  unfold replyOutside
  rw [← h.requests id hid]
  split
  · exact h
  rename_i r hr
  split
  · rename_i cancelled hphase
    have hfree := h.forwards.notMem hr (by simp [hphase])
    split
    · exact h
    cases outcome with
    | error error => exact h.setBoth (h.forwards.setFree hfree _)
    | ok result =>
      dsimp only
      split
      · exact h
      have hcleared := h.setTimeouts (h.timeoutCount_clear hid)
      rw [← clearTimeout_eq, ← clearTimeout_eq] at hcleared
      refine hcleared.setBoth (hcleared.forwards.setFree ?_ _)
      rw [inflight_clearTimeout]
      exact hfree
  · exact h

theorem SameWithout.replyOutsideGone (h : SameWithout env gone s t) (hid : gone id = true)
    (hok : Considerate env gone s (.replyOutside id outcome)) :
    SameWithout env gone (replyOutside env s id outcome) t := by
  unfold replyOutside
  split
  · exact h
  rename_i r hr
  split
  · rename_i cancelled hphase
    have hfree := h.forwards.notMem hr (by simp [hphase])
    split
    · exact h
    rename_i hrejects
    cases outcome with
    | error error => exact h.setGone hid (h.forwards.setFree hfree _)
    | ok result =>
      cases cancelled with
      | true => exact h
      | false =>
        have hcleared := h.setTimeouts
          ((hok hid r hr hphase (Bool.eq_false_iff.mpr hrejects)).trans h.timeoutCount)
        rw [← clearTimeout_eq] at hcleared
        refine hcleared.setGone hid (hcleared.forwards.setFree ?_ _)
        rw [inflight_clearTimeout]
        exact hfree
  · exact h

theorem SameWithout.rejectOutsideBoth (h : SameWithout env gone s t) (hid : gone id = false) :
    SameWithout env gone (rejectOutside env s id) (rejectOutside env t id) := by
  unfold rejectOutside
  rw [← h.requests id hid]
  split
  · exact h
  rename_i r hr
  split
  · rename_i cancelled hphase
    split
    · exact h.setBoth (h.forwards.setFree (h.forwards.notMem hr (by simp [hphase])) _)
    · exact h
  · exact h

theorem SameWithout.rejectOutsideGone (h : SameWithout env gone s t) (hid : gone id = true) :
    SameWithout env gone (rejectOutside env s id) t := by
  unfold rejectOutside
  split
  · exact h
  rename_i r hr
  split
  · rename_i cancelled hphase
    split
    · exact h.setGone hid (h.forwards.setFree (h.forwards.notMem hr (by simp [hphase])) _)
    · exact h
  · exact h

variable {e : RequestEvent}

theorem gone_of_not_isOther (hother : e.isOther gone = false)
    (he : e.request? = some id) : gone id = true := by
  simpa [RequestEvent.isOther, he] using hother

theorem not_gone_of_isOther (hother : e.isOther gone = true)
    (he : e.request? = some id) : gone id = false := by
  simpa [RequestEvent.isOther, he] using hother

/-- A step of a gone request leaves the other requests as they are in the run without. -/
theorem SameWithout.stepGone (h : SameWithout env gone s t)
    (hok : Considerate env gone s e) (hother : e.isOther gone = false) :
    SameWithout env gone (step env s e) t := by
  cases e with
  | arrive id request context =>
    have hid : gone id = true := gone_of_not_isOther hother rfl
    show SameWithout env gone (arrive s id request context) t
    unfold arrive
    split
    · exact h
    · exact h.setGone hid (h.forwards.setArrived ‹_› _)
  | start id answer => exact h.startGone (gone_of_not_isOther hother rfl) answer
  | abort id => exact h.abortGone (gone_of_not_isOther hother rfl) hok
  | cancel id => exact h.cancelGone (gone_of_not_isOther hother rfl) hok
  | replyOutside id outcome =>
    exact h.replyOutsideGone (gone_of_not_isOther hother rfl) hok
  | rejectOutside id =>
    exact h.rejectOutsideGone (gone_of_not_isOther hother rfl)
  | resume id ping => exact h.resumeGone (gone_of_not_isOther hother rfl) hok
  | reply _ _ | replyCancelled _ _ | rejectAborted _ => cases hother

/-- Every other step is the same step in the run without. -/
theorem SameWithout.stepBoth (h : SameWithout env gone s t)
    (hok : Considerate env gone s e) (hother : e.isOther gone = true) :
    SameWithout env gone (step env s e) (step env t e) := by
  cases e with
  | arrive id request context =>
    have hid : gone id = false := not_gone_of_isOther hother rfl
    show SameWithout env gone (arrive s id request context) (arrive t id request context)
    unfold arrive
    rw [← h.requests id hid]
    split
    · exact h
    · exact h.setBoth (h.forwards.setArrived ‹_› _)
  | start id answer => exact h.startBoth (not_gone_of_isOther hother rfl) hok
  | abort id => exact h.abortBoth (not_gone_of_isOther hother rfl) hok
  | cancel id => exact h.cancelBoth (not_gone_of_isOther hother rfl) hok
  | replyOutside id outcome =>
    exact h.replyOutsideBoth (not_gone_of_isOther hother rfl) outcome
  | rejectOutside id =>
    exact h.rejectOutsideBoth (not_gone_of_isOther hother rfl)
  | resume id ping => exact h.resumeBoth (not_gone_of_isOther hother rfl) ping
  | reply key outcome => exact h.reply hok
  | replyCancelled key error => exact h.replyCancelled key error
  | rejectAborted key => exact h.rejectAborted key

end

/-- In every run in which no forward of other requests hangs on the signal of a gone one, and
    the gone requests leave the counts of timeouts as they are, every other request has the
    outcome that it has in the run without them. -/
theorem outcome_without (env : ForwardEnv) (gone : Nat → Bool) (events : List RequestEvent)
    (hok : Meets (step env) (Considerate env gone) .init events) (id : Nat)
    (hid : gone id = false) :
    (run env events).outcome id = (run env (without gone events)).outcome id := by
  have hsame : SameWithout env gone (run env events) (run env (without gone events)) :=
    foldl_filter (fun _ _ _ hok hother h => h.stepGone hok hother)
      (fun _ _ _ hok hother h => h.stepBoth hok hother) hok (SameWithout.init env gone)
  unfold RequestState.outcome
  rw [hsame.requests id hid]

/-! ### Two sessions of a user call the same tool -/

/-- The SDK reports an aborted request as a timeout, and throws the reason of a signal that is
    aborted before the request is sent. -/
def sdkEnv : ForwardEnv where
  sha256 := exampleDigest
  connection := fun _ => .sdkClient
  stopsCancelled := fun _ => true
  abortError := .requestTimeout "AbortError: This operation was aborted"
  abortedError := .other "AbortError: This operation was aborted"

def sharedKey : String :=
  singleflightKey exampleDigest (toolRequest "files" "purge") "alice" none

/-- Two requests, of which the first leads and the second waits with it. -/
def twoRequests : List RequestEvent :=
  [.arrive 0 (toolRequest "files" "purge") "files", .arrive 1 (toolRequest "files" "purge") "files",
    .start 0 (.miss none), .start 1 (.miss none)]

/-- Gone requests lead no forward that a step is about, and record no timeout. -/
def considerateCheck (env : ForwardEnv) (gone : Nat → Bool) (s : RequestState) :
    RequestEvent → Bool
  | .abort id | .cancel id =>
    match s.requests id with
    | some r =>
      match r.phase with
      | .waiting key => (s.inflight key).all fun f => !gone f.leader
      | _ => true
    | none => true
  | .start id (.miss lookupVersions) =>
    match s.requests id with
    | some r =>
      match r.request.scopeIdentity with
      | some scopeIdentity =>
        (s.inflight (singleflightKey env.sha256 r.request scopeIdentity lookupVersions)).all
          fun f => !gone f.leader
      | none => true
    | none => true
  | .reply key _ => (s.inflight key).all fun f => !gone f.leader
  | .replyOutside id _ => !gone id
  | .resume id _ =>
    match s.requests id with
    | some r =>
      match r.phase with
      | .received (.error _) => !gone id
      | _ => true
    | none => true
  | _ => true

theorem considerate_of_check {env : ForwardEnv} {gone : Nat → Bool} {s : RequestState}
    {e : RequestEvent} (h : considerateCheck env gone s e = true) : Considerate env gone s e := by
  cases e with
  | arrive _ _ _ | rejectAborted _ | replyCancelled _ _ | rejectOutside _ => exact trivial
  | abort id =>
    intro r key f hr _ hphase hf _ hleader
    simp [considerateCheck, hr, hphase, hf, hleader] at h
  | cancel id =>
    intro r key f hr hphase hf _ hleader
    simp [considerateCheck, hr, hphase, hf, hleader] at h
  | start id answer =>
    cases answer with
    | hit _ | refused _ => exact trivial
    | miss lookupVersions =>
      intro _ r scopeIdentity f hr _ hidentity hf hleader
      simp [considerateCheck, hr, hidentity, hf, hleader] at h
  | reply key outcome =>
    cases outcome with
    | error error => exact trivial
    | ok result =>
      intro f hf hleader
      simp [considerateCheck, hf, hleader] at h
  | replyOutside id outcome =>
    cases outcome with
    | error error => exact trivial
    | ok result =>
      intro hid
      simp [considerateCheck, hid] at h
  | resume id ping =>
    intro hid r message hr hphase
    simp [considerateCheck, hr, hphase, hid] at h

/-- Whether every event of a list passes the check. -/
def runCheck (env : ForwardEnv) (gone : Nat → Bool) : RequestState → List RequestEvent → Bool
  | _, [] => true
  | s, e :: events => considerateCheck env gone s e && runCheck env gone (step env s e) events

theorem meets_of_runCheck {env : ForwardEnv} {gone : Nat → Bool} {s : RequestState}
    {events : List RequestEvent} (h : runCheck env gone s events = true) :
    Meets (step env) (Considerate env gone) s events := by
  induction events generalizing s with
  | nil => exact trivial
  | cons e events ih =>
    simp only [runCheck, Bool.and_eq_true] at h
    exact ⟨considerate_of_check h.1, ih h.2⟩

/-- The client of the second request cancels it while it waits, and disconnects. -/
def followerCancels : List RequestEvent :=
  twoRequests ++ [.cancel 1, .abort 1, .reply sharedKey (.ok (.str "purged")), .resume 0 .answered]

theorem outcome_without_followerCancels :
    (run sdkEnv followerCancels).outcome 0 = some (.ok (.str "purged")) ∧
      (run sdkEnv followerCancels).outcome 0 =
        (run sdkEnv (without (· == 1) followerCancels)).outcome 0 := by
  refine ⟨rfl, ?_⟩
  exact outcome_without sdkEnv (· == 1) followerCancels (meets_of_runCheck (by decide +kernel)) 0
    rfl

/-- The client of the first request cancels it while the second waits with it. The server stops
    work and says so. -/
def leaderCancels : List RequestEvent :=
  twoRequests ++ [.cancel 0, .replyCancelled sharedKey (.other "MCP error 0: Request cancelled"),
    .resume 1 .answered, .reply sharedKey (.ok (.str "purged")), .resume 1 .answered]

/-- The client of the first request disconnects while the second waits with it. Both handlers
    start again after the supposed timeout, the first with its aborted signal, and the second
    waits with it once more. -/
def leaderDisconnects : List RequestEvent :=
  twoRequests ++ [.abort 0, .resume 0 .answered, .resume 1 .answered, .start 0 (.miss none),
    .start 1 (.miss none), .rejectAborted sharedKey, .resume 1 .answered,
    .reply sharedKey (.ok (.str "purged")), .resume 1 .answered]

theorem cancelled_leader_fails_others :
    (¬ ∀ (env : ForwardEnv) (gone : Nat → Bool) (events : List RequestEvent),
      (∀ id, gone id = true → .cancel id ∈ events ∨ .abort id ∈ events) →
      ∀ id, gone id = false →
      (run env events).outcome id = (run env (without gone events)).outcome id) ∧
    (run sdkEnv leaderCancels).outcome 1 =
      some (.error (.other "MCP error 0: Request cancelled")) ∧
    (run sdkEnv (without (· == 0) leaderCancels)).outcome 1 = some (.ok (.str "purged")) ∧
    (run sdkEnv leaderDisconnects).outcome 1 =
      some (.error (.other "AbortError: This operation was aborted")) ∧
    (run sdkEnv (without (· == 0) leaderDisconnects)).outcome 1 = some (.ok (.str "purged")) := by
  have hfails : (run sdkEnv leaderCancels).outcome 1 =
      some (.error (.other "MCP error 0: Request cancelled")) := rfl
  have hwithout : (run sdkEnv (without (· == 0) leaderCancels)).outcome 1 =
      some (.ok (.str "purged")) := rfl
  refine ⟨?_, hfails, hwithout, rfl, rfl⟩
  intro hall
  have hsame := hall sdkEnv (· == 0) leaderCancels ?_ 1 rfl
  · rw [hfails, hwithout] at hsame
    cases hsame
  · intro id hid
    rw [eq_of_beq hid]
    simp [leaderCancels]

end PetaCore
