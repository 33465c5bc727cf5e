import PetaCore.Spec.ApprovalRequestHasher
import PetaCore.Spec.ToolCall

/-!
# Every execution spends its own approval

Runs of the whole gateway: legacy and modern calls, decisions, sweepers and policy
changes in any order. The invariant links the rows of `approval_request` to the calls
that hold them.

## Key results

- `executions_spend_approvals`: a forward that needs approval is preceded by a claim of a
  matching row, and no row authorises two forwards; as long as the stale-executing sweeper
  only meets rows whose call is still heard of, no two forwards of one hash overlap
- `modern_forwards_overlap`: a modern call that runs for more than ten minutes breaks the
  last property
-/

namespace PetaCore

open Run ApprovalTable

/-! ## Rows and the requests they stand for -/

/-- The table holds a row with this id and hash. -/
def HasRow (t : ApprovalTable) (id requestHash : String) : Prop :=
  ∃ r, t.findById id = some r ∧ r.requestHash = requestHash

/-- The table holds a row with this id and hash that can no longer be claimed. -/
def Spent (t : ApprovalTable) (id requestHash : String) : Prop :=
  ∃ r, t.findById id = some r ∧ r.requestHash = requestHash ∧ r.status.isOpen = false

/-- The hash of a row is that of the request it was created for. -/
def RowOk (sha256 : String → String) (r : ApprovalRequest) : Prop :=
  ∃ args, r.canonicalArgs = sortKeys args ∧
    r.requestHash = computeHash sha256 r.userId r.serverId r.toolName args r.policyVersion

/-- The same for the parameters of a call of `createOrGetPending`. -/
def ParamsOk (sha256 : String → String) (params : CreateApprovalParams) : Prop :=
  ∃ args, params.canonicalArgs = sortKeys args ∧
    params.requestHash = computeHash sha256 params.userId params.serverId params.toolName args
      params.policyVersion

section

variable {clock : Timestamp} {cause : Cause} {t t' : ApprovalTable}
  {id requestHash : String} {sha256 : String → String}

theorem HasRow.tableStep (h : HasRow t id requestHash) (hstep : TableStep clock cause t t') :
    HasRow t' id requestHash := by
  obtain ⟨r, hr, hhash⟩ := h
  obtain ⟨r', hr', hrow⟩ := hstep.findById_some hr
  exact ⟨r', hr', hrow.requestHash.trans hhash⟩

/-- A row that cannot be claimed does not become claimable again. -/
theorem not_open_stays {r r' : ApprovalRequest} (hrow : RowStep clock cause r r')
    (h : r.status.isOpen = false) : r'.status.isOpen = false := by
  rcases hrow.status.successor with heq | hsucc
  · rw [heq]
    exact h
  · revert h hsucc
    cases r.status <;> cases r'.status <;> decide

theorem Spent.tableStep (h : Spent t id requestHash) (hstep : TableStep clock cause t t') :
    Spent t' id requestHash := by
  obtain ⟨r, hr, hhash, hopen⟩ := h
  obtain ⟨r', hr', hrow⟩ := hstep.findById_some hr
  exact ⟨r', hr', hrow.requestHash.trans hhash, not_open_stays hrow hopen⟩

theorem RowOk.rowStep {r r' : ApprovalRequest} (h : RowOk sha256 r)
    (hrow : RowStep clock cause r r') : RowOk sha256 r' := by
  obtain ⟨args, hargs, hhash⟩ := h
  refine ⟨args, hrow.canonicalArgs.trans hargs, ?_⟩
  rw [hrow.requestHash, hrow.userId, hrow.serverId, hrow.toolName, hrow.policyVersion]
  exact hhash

end

/-- The approval state as far as tool calls rely on it. -/
structure ApprovalsOk (sha256 : String → String) (s : ApprovalState) : Prop where
  valid : s.table.Valid
  rows : ∀ r ∈ s.table, RowOk sha256 r
  params : ∀ c ∈ s.creates, ParamsOk sha256 c.params
  returned : ∀ c ∈ s.creates, ∀ created row, c.pc = .done (.returned created row) →
    HasRow s.table row.id c.params.requestHash

theorem ApprovalsOk.init (sha256 : String → String) (clock : Timestamp) :
    ApprovalsOk sha256 (.init clock) := by
  refine ⟨List.Pairwise.nil, ?_, ?_, ?_⟩
  all_goals simp [ApprovalState.init]

variable {sha256 : String → String}

variable {s : ApprovalState} {t : ApprovalTable}

/-- A statement of `createOrGetPending` keeps the state in order. -/
private theorem ApprovalsOk.createStep (h : ApprovalsOk sha256 s) {call : Nat} {c c' : CreateCall}
    (hc : s.creates[call]? = some c) (hstep : CreateStep s.clock s.table c t c') :
    ApprovalsOk sha256 (s.setCreate call t c') := by
  have hmem := List.mem_of_getElem? hc
  have htable : TableStep s.clock .other s.table t := hstep.tableStep
  refine ⟨htable.valid h.valid, ?_, ?_, ?_⟩
  · intro r hr
    simp only [ApprovalState.setCreate] at hr
    cases hstep with
    | inserted id now hpc hnow hid hhash =>
      rcases List.mem_append.mp hr with hold | hnew
      · exact h.rows r hold
      · obtain rfl : r = pendingRow c.params id now := by simpa using hnew
        exact h.params c hmem
    | conflict | duplicate | found | exhausted | missed => exact h.rows r hr
    | expired hpc =>
      obtain ⟨r₀, hr₀, hrow⟩ := htable.mem_of_length (List.length_map _) hr
      exact (h.rows r₀ hr₀).rowStep hrow
  · intro d hd
    rcases List.mem_or_eq_of_mem_set hd with hold | rfl
    · exact h.params d hold
    · rw [hstep.params_eq]
      exact h.params c hmem
  · intro d hd created row hdone
    rcases List.mem_or_eq_of_mem_set hd with hold | rfl
    · exact (h.returned d hold created row hdone).tableStep htable
    · show HasRow t row.id d.params.requestHash
      cases hstep with
      | inserted id now hpc hnow hid hhash =>
        obtain ⟨rfl, rfl⟩ : true = created ∧ pendingRow c.params id now = row := by
          simpa using hdone
        exact ⟨pendingRow c.params id now,
          (htable.valid h.valid).findById (List.mem_append_right _ (by simp)), rfl⟩
      | found now row' hpc hrow =>
        obtain ⟨rfl, rfl⟩ : false = created ∧ row' = row := by simpa using hdone
        obtain ⟨hmem', hhash, _⟩ := findActiveByRequestHash_some hrow
        exact ⟨row', h.valid.findById hmem', hhash⟩
      | conflict | duplicate | exhausted | missed | expired => cases hdone

/-- Every statement keeps the state in order. -/
theorem ApprovalsOk.step {s' : ApprovalState}
    {a : ApprovalAction} (h : ApprovalsOk sha256 s) (hs : s.step a = some s')
    (ha : ∀ params, a = .createOrGetPending params → ParamsOk sha256 params) :
    ApprovalsOk sha256 s' := by
  rcases ApprovalState.step_cases hs with ⟨clock, _, rfl⟩ | ⟨t, ht, hlen, rfl⟩ |
    ⟨params, rfl, rfl⟩ | ⟨call, c, c', t, hc, hstep, rfl⟩
  · exact ⟨h.valid, h.rows, h.params, h.returned⟩
  · refine ⟨ht.valid h.valid, ?_, h.params, ?_⟩
    · intro r hr
      obtain ⟨r₀, hr₀, hrow⟩ := ht.mem_of_length hlen hr
      exact (h.rows r₀ hr₀).rowStep hrow
    · intro c hc created row hdone
      exact (h.returned c hc created row hdone).tableStep ht
  · refine ⟨h.valid, h.rows, ?_, ?_⟩
    · intro c hc
      rcases List.mem_append.mp hc with hold | hnew
      · exact h.params c hold
      · obtain rfl : c = CreateCall.start params := by simpa using hnew
        exact ha params rfl
    · intro c hc created row hdone
      rcases List.mem_append.mp hc with hold | hnew
      · exact h.returned c hold created row hdone
      · obtain rfl : c = CreateCall.start params := by simpa using hnew
        cases hdone
  · exact h.createStep hc hstep

/-- A call of `createOrGetPending` keeps its parameters. -/
theorem ApprovalState.step_creates {s' : ApprovalState} {a : ApprovalAction}
    (hs : s.step a = some s') {k : Nat} {c : CreateCall} (hc : s.creates[k]? = some c) :
    ∃ c', s'.creates[k]? = some c' ∧ c'.params = c.params := by
  have hk : k < s.creates.length := (List.getElem?_eq_some_iff.mp hc).1
  rcases ApprovalState.step_cases hs with ⟨clock, _, rfl⟩ | ⟨t, _, _, rfl⟩ |
    ⟨params, _, rfl⟩ | ⟨call, d, d', t, hd, hstep, rfl⟩
  · exact ⟨c, hc, rfl⟩
  · exact ⟨c, hc, rfl⟩
  · exact ⟨c, by rw [List.getElem?_append_left hk]; exact hc, rfl⟩
  · by_cases heq : call = k
    · subst heq
      obtain rfl := Option.some.inj (hc.symm.trans hd)
      exact ⟨d', by simp [ApprovalState.setCreate, hk], hstep.params_eq⟩
    · refine ⟨c, ?_, rfl⟩
      simp only [ApprovalState.setCreate]
      rw [List.getElem?_set_ne heq]
      exact hc

/-! ## Claims -/

variable {id : String}

/-- A claim that returns a row has moved an approved row with the given id. -/
theorem claimApprovedForExecutionById_spec (ht : t.Valid)
    {clock : Timestamp} {row : ApprovalRequest} {rows : List ApprovalRequest}
    (h : (t.claimApprovedForExecutionById id clock).2 = row :: rows) :
    row.id = id ∧ ∃ r, t.findById id = some r ∧ r.status = .approved ∧
      (t.claimApprovedForExecutionById id clock).1.statusOf id = some .executing := by
  have hrow : row ∈ (t.claimApprovedForExecutionById id clock).2 := by
    rw [h]
    exact List.mem_cons_self
  obtain ⟨r, hr, rfl⟩ := List.mem_map.mp hrow
  obtain ⟨hmem, hsel⟩ := List.mem_filter.mp hr
  have hsel' := hsel
  simp only [Bool.and_eq_true, beq_iff_eq, decide_eq_true_eq] at hsel'
  obtain ⟨⟨rfl, happ⟩, _⟩ := hsel'
  have hfind := ht.findById hmem
  refine ⟨rfl, r, hfind, happ, ?_⟩
  simp only [ApprovalTable.statusOf, claimApprovedForExecutionById, claimWhere]
  rw [findById_updateWhere]
  · rw [hfind, Option.map_some, hsel]
    rfl
  · intro r
    rfl

/-! ## Calls and the rows they hold -/

/-- The call has claimed this row and is not over. -/
def ToolCall.Holds (c : ToolCall) (id : String) : Prop :=
  ∃ f, c.pc.forward? = some f ∧ f.approvalRequestId = some id

/-- Call `i` sends `f` downstream. -/
def Sends (i : Nat) (c : ToolCall) (f : Forward) (tr : GatewayTransition) : Prop :=
  tr.pre.calls[i]? = some c ∧ c.pc = .forward f ∧
    tr.post.calls[i]? = some { c with pc := .inFlight f }

/-- Call `i` claims row `id`, which is approved and stands for the user, server, tool,
    arguments and policy version of what the call then may forward as `f`. -/
def Claims (i : Nat) (c : ToolCall) (f : Forward) (id : String) (tr : GatewayTransition) :
    Prop :=
  (∃ ask, tr.pre.calls[i]? = some { c with pc := .claim ask id }) ∧
  tr.post.calls[i]? = some { c with pc := .forward f } ∧
  tr.post.approvals.table.statusOf id = some .executing ∧
  ∃ row, tr.pre.approvals.table.findById id = some row ∧ row.status = .approved ∧
    row.userId = c.request.userId ∧ row.serverId = some f.route.serverId ∧
    row.toolName = f.route.toolName ∧ row.canonicalArgs = sortKeys c.request.args ∧
    row.policyVersion = f.result.policyVersion

/-- What holds of call `i` after the transitions `trs`. -/
structure CallOk (sha256 : String → String) (trs : List GatewayTransition)
    (s : ApprovalState) (i : Nat) (c : ToolCall) : Prop where
  ask : ∀ ask, c.pc.ask? = some ask → ask.result.decision = .requireApproval ∧
    ask.requestHash = c.requestHash sha256 ask.route ask.result.policyVersion
  create : ∀ ask k, c.pc = .create ask k →
    ∃ cc, s.creates[k]? = some cc ∧ cc.params.requestHash = ask.requestHash
  row : ∀ ask id, c.pc.row? = some (ask, id) → HasRow s.table id ask.requestHash
  gated : ∀ f, c.pc.forward? = some f → f.result.decision = .requireApproval →
    ∃ id, f.approvalRequestId = some id
  spent : ∀ f id, c.pc.forward? = some f → f.approvalRequestId = some id →
    Spent s.table id (c.requestHash sha256 f.route f.result.policyVersion)
  claimed : ∀ f id, c.pc.forward? = some f → f.approvalRequestId = some id →
    ∃ tr ∈ trs, Claims i c f id tr
  unsent : ∀ f id, c.pc = .forward f → f.approvalRequestId = some id →
    ∀ tr ∈ trs, ∀ j d e, Sends j d e tr → e.approvalRequestId ≠ some id

/-- What holds after the transitions `trs`: the calls are in order, each row is held by at
    most one of them, and a row that authorised a forward cannot be claimed again. -/
structure GatewayOk (sha256 : String → String) (trs : List GatewayTransition) (g : Gateway) :
    Prop where
  approvals : ApprovalsOk sha256 g.approvals
  calls : ∀ (i : Nat) (c : ToolCall), g.calls[i]? = some c → CallOk sha256 trs g.approvals i c
  distinct : ∀ (i j : Nat) (c d : ToolCall) (id : String), g.calls[i]? = some c →
    g.calls[j]? = some d → c.Holds id → d.Holds id → i = j
  sent : ∀ tr ∈ trs, ∀ i c f id, Sends i c f tr → f.approvalRequestId = some id →
    ∃ requestHash, Spent g.approvals.table id requestHash

section

variable {sha256 : String → String} {trs : List GatewayTransition} {s s' : ApprovalState}
  {i : Nat} {c : ToolCall}

/-- A call outside the approval flow has nothing to keep. -/
theorem CallOk.idle (hask : c.pc.ask? = none) (hf : c.pc.forward? = none) :
    CallOk sha256 trs s i c := by
  have hcreate : ∀ ask k, c.pc ≠ .create ask k := by
    intro ask k hpc
    rw [hpc] at hask
    cases hask
  have hrow : ∀ ask id, c.pc.row? ≠ some (ask, id) := by
    intro ask id hr
    rw [CallPc.ask?_of_row? hr] at hask
    cases hask
  refine ⟨?_, ?_, ?_, ?_, ?_, ?_, ?_⟩
  · intro ask h
    rw [hask] at h
    cases h
  · intro ask k h
    exact absurd h (hcreate ask k)
  · intro ask id h
    exact absurd h (hrow ask id)
  · intro f h
    rw [hf] at h
    cases h
  · intro f id h
    rw [hf] at h
    cases h
  · intro f id h
    rw [hf] at h
    cases h
  · intro f id h
    rw [h] at hf
    cases hf

/-- A call that takes no part in a transition stays in order. -/
theorem CallOk.frame {tr : GatewayTransition} (h : CallOk sha256 trs s i c)
    {clock : Timestamp} {cause : Cause}
    (htable : TableStep clock cause s.table s'.table)
    (hcreates : ∀ (k : Nat) (cc : CreateCall), s.creates[k]? = some cc →
      ∃ cc' : CreateCall, s'.creates[k]? = some cc' ∧ cc'.params = cc.params)
    (hsends : ∀ id, c.Holds id → ∀ j d e, Sends j d e tr → e.approvalRequestId ≠ some id) :
    CallOk sha256 (trs ++ [tr]) s' i c := by
  refine ⟨h.ask, ?_, ?_, h.gated, ?_, ?_, ?_⟩
  · intro ask k hpc
    obtain ⟨cc, hcc, hhash⟩ := h.create ask k hpc
    obtain ⟨cc', hcc', hparams⟩ := hcreates k cc hcc
    exact ⟨cc', hcc', by rw [hparams]; exact hhash⟩
  · intro ask id hrow
    exact (h.row ask id hrow).tableStep htable
  · intro f id hf hid
    exact (h.spent f id hf hid).tableStep htable
  · intro f id hf hid
    obtain ⟨tr', htr', hclaims⟩ := h.claimed f id hf hid
    exact ⟨tr', List.mem_append_left _ htr', hclaims⟩
  · intro f id hpc hid tr' htr' j d e hsend
    rcases List.mem_append.mp htr' with hold | hnew
    · exact h.unsent f id hpc hid tr' hold j d e hsend
    · obtain rfl : tr' = tr := by simpa using hnew
      exact hsends id ⟨f, by rw [hpc]; rfl, hid⟩ j d e hsend

end

/-- A call that a transition leaves as it is sends nothing in it. -/
theorem not_sends {tr : GatewayTransition} {j : Nat} {d : ToolCall} {e : Forward}
    (h : tr.pre.calls[j]? = some d → tr.post.calls[j]? = some d) : ¬Sends j d e tr := by
  rintro ⟨hpre, hpc, hpost⟩
  have heq : d = { d with pc := .inFlight e } := Option.some.inj ((h hpre).symm.trans hpost)
  rw [heq] at hpc
  cases hpc

section

variable {sha256 : String → String} {trs : List GatewayTransition} {s : ApprovalState}
  {i : Nat} {c : ToolCall}

/-- A call that asks for approval. -/
theorem CallOk.ofAsk {ask : Ask} (hpc : c.pc.ask? = some ask)
    (hask : ask.result.decision = .requireApproval ∧
      ask.requestHash = c.requestHash sha256 ask.route ask.result.policyVersion)
    (hcreate : ∀ ask k, c.pc = .create ask k →
      ∃ cc, s.creates[k]? = some cc ∧ cc.params.requestHash = ask.requestHash)
    (hrow : ∀ ask id, c.pc.row? = some (ask, id) → HasRow s.table id ask.requestHash) :
    CallOk sha256 trs s i c := by
  have hf := CallPc.forward?_of_ask? hpc
  refine ⟨?_, hcreate, hrow, ?_, ?_, ?_, ?_⟩
  · intro ask' hpc'
    obtain rfl := Option.some.inj (hpc.symm.trans hpc')
    exact hask
  · intro f h
    rw [hf] at h
    cases h
  · intro f id h
    rw [hf] at h
    cases h
  · intro f id h
    rw [hf] at h
    cases h
  · intro f id h
    rw [h] at hf
    cases hf

/-- A call that goes downstream. -/
theorem CallOk.ofForward {f : Forward} (hpc : c.pc.forward? = some f)
    (hgated : f.result.decision = .requireApproval → ∃ id, f.approvalRequestId = some id)
    (hspent : ∀ id, f.approvalRequestId = some id →
      Spent s.table id (c.requestHash sha256 f.route f.result.policyVersion))
    (hclaimed : ∀ id, f.approvalRequestId = some id → ∃ tr ∈ trs, Claims i c f id tr)
    (hunsent : ∀ id, c.pc = .forward f → f.approvalRequestId = some id →
      ∀ tr ∈ trs, ∀ j d e, Sends j d e tr → e.approvalRequestId ≠ some id) :
    CallOk sha256 trs s i c := by
  have hask := CallPc.ask?_of_forward? hpc
  refine ⟨?_, ?_, ?_, ?_, ?_, ?_, ?_⟩
  · intro ask h
    rw [hask] at h
    cases h
  · intro ask k h
    rw [h] at hask
    cases hask
  · intro ask id h
    rw [CallPc.ask?_of_row? h] at hask
    cases hask
  · intro f' h
    obtain rfl := Option.some.inj (hpc.symm.trans h)
    exact hgated
  · intro f' id h
    obtain rfl := Option.some.inj (hpc.symm.trans h)
    exact hspent id
  · intro f' id h
    obtain rfl := Option.some.inj (hpc.symm.trans h)
    exact hclaimed id
  · intro f' id h
    have hf' : c.pc.forward? = some f' := by rw [h]; rfl
    obtain rfl := Option.some.inj (hpc.symm.trans hf')
    exact hunsent id h

/-- A row that a call holds is not an approved one. -/
theorem GatewayOk.not_approved {g : Gateway} (h : GatewayOk sha256 trs g)
    (hc : g.calls[i]? = some c) {id : String} (hholds : c.Holds id) {r : ApprovalRequest}
    (hr : g.approvals.table.findById id = some r) : r.status ≠ .approved := by
  obtain ⟨f, hf, hid⟩ := hholds
  obtain ⟨r', hr', _, hopen⟩ := (h.calls i c hc).spent f id hf hid
  obtain rfl := Option.some.inj (hr.symm.trans hr')
  intro happ
  rw [happ] at hopen
  cases hopen

end

/-- What a step changes in the approval system, as the calls see it. -/
theorem GatewayStep.approvals {rt : DslRuntime} {g g' : Gateway}
    {a : GatewayAction} (h : GatewayStep rt sha256 g a g') :
    ∃ clock cause, TableStep clock cause g.approvals.table g'.approvals.table ∧
      ∀ (k : Nat) (cc : CreateCall), g.approvals.creates[k]? = some cc →
        ∃ cc' : CreateCall, g'.approvals.creates[k]? = some cc' ∧ cc'.params = cc.params := by
  have same : ∀ s : ApprovalState, ∃ clock cause, TableStep clock cause s.table s.table ∧
      ∀ (k : Nat) (cc : CreateCall), s.creates[k]? = some cc →
        ∃ cc' : CreateCall, s.creates[k]? = some cc' ∧ cc'.params = cc.params :=
    fun s => ⟨0, .other, TableStep.refl _, fun _ cc hcc => ⟨cc, hcc, rfl⟩⟩
  have moved : ∀ (s s' : ApprovalState) (b : ApprovalAction), s.step b = some s' →
      ∃ clock cause, TableStep clock cause s.table s'.table ∧
        ∀ (k : Nat) (cc : CreateCall), s.creates[k]? = some cc →
          ∃ cc' : CreateCall, s'.creates[k]? = some cc' ∧ cc'.params = cc.params :=
    fun s s' b hs => ⟨_, _, (ApprovalState.step_tableStep hs).2,
      fun _ _ hcc => ApprovalState.step_creates hs hcc⟩
  cases h with
  | background b s hb hs => exact moved _ _ b hs
  | sweep now s hs => exact moved _ _ _ hs
  | policy _ _ _ | start _ => exact same _
  | call i b c c' effect g₁ hc hstep happ =>
    rcases Gateway.apply_cases happ with ⟨_, rfl⟩ | ⟨b, s, _, hs, rfl⟩ | ⟨b, p, _, _, rfl⟩
    · exact same _
    · exact moved _ _ b hs
    · exact same _

section

variable {rt : DslRuntime} {sha256 : String → String} {trs : List GatewayTransition}
  {g g₁ : Gateway} {i : Nat} {c c' : ToolCall} {effect : CallEffect} {a : CallAction}

/-- The row a successful claim moves stands for what the call asked for. -/
theorem GatewayOk.claimed_row (hsha : Function.Injective sha256) (h : GatewayOk sha256 trs g)
    (hc : g.calls[i]? = some c) {ask : Ask} {id : String} (hpc : c.pc = .claim ask id)
    {row : ApprovalRequest} (hrow : g.approvals.table.findById id = some row) :
    row.requestHash = c.requestHash sha256 ask.route ask.result.policyVersion ∧
    row.userId = c.request.userId ∧ row.serverId = some ask.route.serverId ∧
    row.toolName = ask.route.toolName ∧ row.canonicalArgs = sortKeys c.request.args ∧
    row.policyVersion = ask.result.policyVersion := by
  have hcall := h.calls i c hc
  have hask := (hcall.ask ask (by rw [hpc]; rfl)).2
  obtain ⟨r, hr, hhash⟩ := hcall.row ask id (by rw [hpc]; rfl)
  obtain rfl := Option.some.inj (hrow.symm.trans hr)
  obtain ⟨args, hargs, hrowHash⟩ := h.approvals.rows row (findById_mem hrow).1
  have heq := hrowHash.symm.trans (hhash.trans hask)
  obtain ⟨huser, hserver, htool, hsort, hversion⟩ := computeHash_inj hsha heq
  exact ⟨hhash.trans hask, huser, hserver, htool, hargs.trans hsort, hversion⟩

/-- The call that acts is in order afterwards. -/
theorem GatewayOk.acting (hsha : Function.Injective sha256) (h : GatewayOk sha256 trs g)
    (hc : g.calls[i]? = some c)
    (hstep : CallStep rt sha256 g.approvals g.policy c effect c')
    (happ : g.apply effect = some g₁) :
    CallOk sha256 (trs ++ [⟨g, .call i a, { g₁ with calls := g.calls.set i c' }⟩])
      g₁.approvals i c' := by
  have hold := h.calls i c hc
  have hi : i < g.calls.length := (List.getElem?_eq_some_iff.mp hc).1
  obtain ⟨clock, cause, htable, hcreates⟩ :=
    (GatewayStep.call i a c c' effect g₁ hc hstep happ).approvals
  -- what a call that keeps its forward carries over
  have keep : ∀ f pc n, c.pc.forward? = some f → pc.forward? = some f → (∀ e, pc ≠ .forward e) →
      n = c.retryCount → CallOk sha256
        (trs ++ [⟨g, .call i a, { g₁ with calls := g.calls.set i c' }⟩]) g₁.approvals i
        { c with retryCount := n, pc := pc } := by
    intro f pc n hf hf' hne hn
    subst hn
    refine CallOk.ofForward hf' (hold.gated f hf) ?_ ?_ ?_
    · intro id hid
      exact (hold.spent f id hf hid).tableStep htable
    · intro id hid
      obtain ⟨tr, htr, hclaims⟩ := hold.claimed f id hf hid
      exact ⟨tr, List.mem_append_left _ htr, hclaims⟩
    · intro id hpc
      exact absurd hpc (hne f)
  cases hstep with
  | stop n pc hpc => rcases hpc with rfl | rfl <;> exact CallOk.idle rfl rfl
  | evaluate _ _ _ | lost _ _ _ _ => exact CallOk.idle rfl rfl
  | allowed route e ev result hpc hev hres hdec =>
    refine CallOk.ofForward rfl ?_ (fun _ h => by cases h) (fun _ h => by cases h)
      (fun _ _ h => by cases h)
    intro hreq
    rw [hdec] at hreq
    cases hreq
  | ask route e ev result hpc hev hres hdec =>
    exact CallOk.ofAsk rfl ⟨hdec, rfl⟩ (fun _ _ h => by cases h) (fun _ _ h => by cases h)
  | count ask pc hask hpc =>
    rcases hpc with rfl | ⟨since, rfl⟩
    all_goals
      exact CallOk.ofAsk rfl (hold.ask ask hask) (fun _ _ h => by cases h)
        (fun _ _ h => by cases h)
  | create ask since now redactedArgs hpc =>
    refine CallOk.ofAsk rfl (hold.ask ask (by rw [hpc]; rfl)) ?_ (fun _ _ h => by cases h)
    intro ask' k heq
    obtain ⟨rfl, rfl⟩ := CallPc.create.inj heq
    obtain ⟨s, hs, rfl⟩ := Gateway.apply_approval happ
    cases hs
    exact ⟨CreateCall.start (c.createParams ask now redactedArgs), by simp, rfl⟩
  | found ask row pc hask hrow hpc =>
    cases happ
    have hhas : HasRow g.approvals.table row.id ask.requestHash := by
      rcases hrow with ⟨hmem, hhash⟩ | ⟨k, cc, created, hpc, hcc, hdone⟩
      · exact ⟨row, h.approvals.valid.findById hmem, hhash⟩
      · obtain ⟨cc', hcc', hparams⟩ := hold.create ask k hpc
        obtain rfl := Option.some.inj (hcc.symm.trans hcc')
        rw [← hparams]
        exact h.approvals.returned cc (List.mem_of_getElem? hcc) created row hdone
    rcases hpc with rfl | rfl
    all_goals
      refine CallOk.ofAsk rfl (hold.ask ask hask) (fun _ _ h => by cases h) ?_
      intro ask' id heq
      obtain ⟨rfl, rfl⟩ := Prod.mk.inj (Option.some.inj heq)
      exact hhas
  | approved ask id hpc =>
    cases happ
    refine CallOk.ofAsk rfl (hold.ask ask (by rw [hpc]; rfl)) (fun _ _ h => by cases h) ?_
    intro ask' id' heq
    obtain ⟨rfl, rfl⟩ := Prod.mk.inj (Option.some.inj heq)
    exact hold.row ask id (by rw [hpc]; rfl)
  | claimed ask id row rows hpc hrows =>
    obtain ⟨hrowid, r, hr, happr, hexec⟩ :=
      claimApprovedForExecutionById_spec h.approvals.valid hrows
    obtain ⟨hhash, hdata⟩ := h.claimed_row hsha hc hpc hr
    have hask := hold.ask ask (by rw [hpc]; rfl)
    have htable₁ : g₁.approvals.table =
        (g.approvals.table.claimApprovedForExecutionById id g.approvals.clock).1 := by
      obtain ⟨s, hs, rfl⟩ := Gateway.apply_approval happ
      cases hs
      rfl
    refine CallOk.ofForward rfl (fun _ => ⟨row.id, rfl⟩) ?_ ?_ ?_
    · intro id' hid'
      obtain rfl : row.id = id' := Option.some.inj hid'
      rw [hrowid]
      obtain ⟨r', hr', hrow'⟩ := htable.findById_some hr
      refine ⟨r', hr', hrow'.requestHash.trans hhash, ?_⟩
      rw [← htable₁, statusOf_eq hr'] at hexec
      rw [Option.some.inj hexec]
      rfl
    · intro id' hid'
      obtain rfl : row.id = id' := Option.some.inj hid'
      rw [hrowid]
      refine ⟨_, List.mem_append_right _ List.mem_cons_self, ⟨ask, ?_⟩, ?_, ?_, r, hr, happr,
        hdata⟩
      · show g.calls[i]? = some { c with pc := .claim ask id }
        rw [hc, ← hpc]
      · simp [hi]
      · show g₁.approvals.table.statusOf id = _
        rw [htable₁]
        exact hexec
    · -- the row was approved until now, so nothing was sent under it
      intro id' _ hid' tr htr j d e hsend heq
      obtain rfl : row.id = id' := Option.some.inj hid'
      rcases List.mem_append.mp htr with hpast | hnow
      · obtain ⟨hash, r', hr', _, hopen⟩ := h.sent tr hpast j d e row.id hsend heq
        rw [hrowid] at hr'
        obtain rfl := Option.some.inj (hr.symm.trans hr')
        rw [happr] at hopen
        cases hopen
      · obtain rfl : tr = _ := by simpa using hnow
        obtain ⟨hpre, hpcd, hpost⟩ := hsend
        by_cases hij : j = i
        · subst hij
          obtain rfl : c = d := Option.some.inj (hc.symm.trans hpre)
          rw [hpc] at hpcd
          cases hpcd
        · refine not_sends ?_ ⟨hpre, hpcd, hpost⟩
          intro hd
          show (g.calls.set i _)[j]? = some d
          rw [List.getElem?_set_ne (Ne.symm hij)]
          exact hd
  | send f hpc =>
    exact keep f (.inFlight f) c.retryCount (by rw [hpc]; rfl) rfl (fun _ h => by cases h) rfl
  | advance f pc hpc hf hrun =>
    refine keep f pc c.retryCount hpc hf ?_ rfl
    intro e heq
    rw [heq] at hrun
    cases hrun
  | touch f id hpc hid =>
    refine CallOk.frame hold htable hcreates ?_
    intro id' _ j d e hsend _
    refine not_sends ?_ hsend
    intro hd
    show (g.calls.set i c)[j]? = some d
    rw [← (List.getElem?_eq_some_iff.mp hc).2, List.set_getElem_self]
    exact hd
  | settle f id b n pc hpc hid hrun hb hpc' =>
    rcases hpc' with rfl | rfl | ⟨hf, hrun', hn⟩
    · exact CallOk.idle rfl rfl
    · exact CallOk.idle rfl rfl
    · refine keep f pc n hpc hf ?_ hn
      intro e heq
      rw [heq] at hrun'
      cases hrun'

/-- A call starts `createOrGetPending` only with the parameters of its own request. -/
theorem CallStep.createOrGetPending {params : CreateApprovalParams} {s : ApprovalState}
    {p : PolicyState}
    (h : CallStep rt sha256 s p c (.approval (.createOrGetPending params)) c') :
    ∃ ask now redactedArgs, c.pc.ask? = some ask ∧
      params = c.createParams ask now redactedArgs := by
  generalize heff : CallEffect.approval (.createOrGetPending params) = effect at h
  cases h with
  | create ask since now redactedArgs hpc =>
    simp only [CallEffect.approval.injEq, ApprovalAction.createOrGetPending.injEq] at heff
    exact ⟨ask, now, redactedArgs, by rw [hpc]; rfl, heff⟩
  | settle f id b n pc hpc hid hrun hb hpc' =>
    rcases hb with ⟨stored, now, rfl⟩ | ⟨error, now, rfl⟩ <;> cases heff
  | _ => cases heff

/-- A call comes to hold a row only by claiming it while it is approved. -/
theorem CallStep.holds {s : ApprovalState} {p : PolicyState} (hv : s.table.Valid)
    (h : CallStep rt sha256 s p c effect c') {id : String} (hc' : c'.Holds id) :
    c.Holds id ∨ ∃ r, s.table.findById id = some r ∧ r.status = .approved := by
  obtain ⟨f, hf, hid⟩ := hc'
  cases h with
  | stop _ _ hpc | found _ _ _ _ _ hpc => rcases hpc with rfl | rfl <;> cases hf
  | evaluate | ask | create | approved | lost => cases hf
  | allowed route e ev result hpc hev hres hdec =>
    cases hf
    cases hid
  | count ask pc hask hpc => rcases hpc with rfl | ⟨since, rfl⟩ <;> cases hf
  | claimed ask id' row rows hpc hrows =>
    cases hf
    obtain ⟨hrowid, r, hr, happ, _⟩ := claimApprovedForExecutionById_spec hv hrows
    obtain rfl : row.id = id := Option.some.inj hid
    rw [hrowid]
    exact .inr ⟨r, hr, happ⟩
  | send f' hpc =>
    obtain rfl := Option.some.inj hf
    exact .inl ⟨f', by rw [hpc]; rfl, hid⟩
  | advance f' pc hpc hf' hrun =>
    obtain rfl := Option.some.inj (hf'.symm.trans hf)
    exact .inl ⟨f', hpc, hid⟩
  | touch f' id' hpc hid' => exact .inl ⟨f, hf, hid⟩
  | settle f' id' b n pc hpc hid' hrun hb hpc' =>
    rcases hpc' with rfl | rfl | ⟨hf', _, _⟩
    · cases hf
    · cases hf
    · obtain rfl := Option.some.inj (hf'.symm.trans hf)
      exact .inl ⟨f', hpc, hid⟩

end

section

variable {rt : DslRuntime} {sha256 : String → String} {trs : List GatewayTransition}
  {g g' : Gateway}

theorem GatewayOk.init (clock : Timestamp) : GatewayOk sha256 [] (.init clock) := by
  refine ⟨ApprovalsOk.init sha256 clock, ?_, ?_, ?_⟩
  all_goals simp [Gateway.init]

variable {a : GatewayAction}

/-- The approval state stays in order. -/
theorem GatewayOk.step_approvals (h : GatewayOk sha256 trs g)
    (hs : GatewayStep rt sha256 g a g') : ApprovalsOk sha256 g'.approvals := by
  cases hs with
  | background b s hb hs =>
    refine h.approvals.step hs ?_
    intro params heq
    rw [heq] at hb
    cases hb
  | sweep now s hs => exact h.approvals.step hs nofun
  | policy _ _ _ | start _ => exact h.approvals
  | call i b c c' effect g₁ hc hstep happ =>
    rcases Gateway.apply_cases happ with ⟨_, rfl⟩ | ⟨b', s, rfl, hs, rfl⟩ | ⟨b', p, _, _, rfl⟩
    · exact h.approvals
    · refine h.approvals.step hs ?_
      intro params heq
      rw [heq] at hstep
      obtain ⟨ask, now, redactedArgs, hask, rfl⟩ := hstep.createOrGetPending
      exact ⟨c.request.args, rfl, ((h.calls i c hc).ask ask hask).2⟩
    · exact h.approvals

/-- A step in which no call moves keeps everything in order. -/
theorem GatewayOk.step_quiet (h : GatewayOk sha256 trs g)
    (hs : GatewayStep rt sha256 g a g') (hcalls : g'.calls = g.calls) :
    GatewayOk sha256 (trs ++ [⟨g, a, g'⟩]) g' := by
  obtain ⟨clock, cause, htable, hcreates⟩ := hs.approvals
  have hnone : ∀ j d e, ¬Sends j d e ⟨g, a, g'⟩ := by
    intro j d e
    refine not_sends ?_
    intro hd
    show g'.calls[j]? = some d
    rw [hcalls]
    exact hd
  refine ⟨h.step_approvals hs, ?_, ?_, ?_⟩
  · intro i c hc
    rw [hcalls] at hc
    exact (h.calls i c hc).frame htable hcreates fun _ _ j d e hsend => absurd hsend (hnone j d e)
  · intro i j c d id hc hd
    rw [hcalls] at hc hd
    exact h.distinct i j c d id hc hd
  · intro tr htr i c f id hsend hid
    rcases List.mem_append.mp htr with hold | hnew
    · obtain ⟨hash, hspent⟩ := h.sent tr hold i c f id hsend hid
      exact ⟨hash, hspent.tableStep htable⟩
    · obtain rfl : tr = ⟨g, a, g'⟩ := by simpa using hnew
      exact absurd hsend (hnone i c f)

/-- A new call keeps everything in order. -/
theorem GatewayOk.step_start (h : GatewayOk sha256 trs g) (request : ToolCallRequest) :
    GatewayOk sha256 (trs ++ [⟨g, .start request,
      { g with calls := g.calls ++ [⟨request, 0, .resolve⟩] }⟩])
      { g with calls := g.calls ++ [⟨request, 0, .resolve⟩] } := by
  have hlookup : ∀ {i : Nat} {c : ToolCall}, (g.calls ++ [⟨request, 0, .resolve⟩])[i]? = some c →
      g.calls[i]? = some c ∨ c = ⟨request, 0, .resolve⟩ := by
    intro i c hc
    by_cases hi : i < g.calls.length
    · rw [List.getElem?_append_left hi] at hc
      exact .inl hc
    · rw [List.getElem?_append_right (Nat.le_of_not_lt hi)] at hc
      have := List.mem_of_getElem? hc
      exact .inr (by simpa using this)
  have hnone : ∀ j d e, ¬Sends j d e ⟨g, .start request,
      { g with calls := g.calls ++ [⟨request, 0, .resolve⟩] }⟩ := by
    intro j d e
    refine not_sends ?_
    intro hd
    show (g.calls ++ [_])[j]? = some d
    rw [List.getElem?_append_left (List.getElem?_eq_some_iff.mp hd).1]
    exact hd
  refine ⟨h.approvals, ?_, ?_, ?_⟩
  · intro i c hc
    rcases hlookup hc with hold | rfl
    · have hrefl : TableStep 0 .other g.approvals.table g.approvals.table := TableStep.refl _
      exact (h.calls i c hold).frame hrefl (fun _ cc hcc => ⟨cc, hcc, rfl⟩)
        fun _ _ j d e hsend => absurd hsend (hnone j d e)
    · exact CallOk.idle rfl rfl
  · intro i j c d id hc hd hholds hholds'
    rcases hlookup hc with hold | rfl
    · rcases hlookup hd with hold' | rfl
      · exact h.distinct i j c d id hold hold' hholds hholds'
      · obtain ⟨f, hf, _⟩ := hholds'
        cases hf
    · obtain ⟨f, hf, _⟩ := hholds
      cases hf
  · intro tr htr i c f id hsend hid
    rcases List.mem_append.mp htr with hold | hnew
    · exact h.sent tr hold i c f id hsend hid
    · obtain rfl : tr = _ := by simpa using hnew
      exact absurd hsend (hnone i c f)

/-- A step of a call keeps everything in order. -/
theorem GatewayOk.step_call (hsha : Function.Injective sha256) (h : GatewayOk sha256 trs g)
    {i : Nat} {a : CallAction} {c c' : ToolCall} {effect : CallEffect} {g₁ : Gateway}
    (hc : g.calls[i]? = some c)
    (hstep : CallStep rt sha256 g.approvals g.policy c effect c')
    (happ : g.apply effect = some g₁) :
    GatewayOk sha256 (trs ++ [⟨g, .call i a, { g₁ with calls := g.calls.set i c' }⟩])
      { g₁ with calls := g.calls.set i c' } := by
  have hgs := GatewayStep.call i a c c' effect g₁ hc hstep happ
  obtain ⟨clock, cause, htable, hcreates⟩ := hgs.approvals
  have hi : i < g.calls.length := (List.getElem?_eq_some_iff.mp hc).1
  have hlookup : ∀ {j : Nat} {d : ToolCall}, (g.calls.set i c')[j]? = some d →
      (j = i ∧ d = c') ∨ (j ≠ i ∧ g.calls[j]? = some d) := by
    intro j d hd
    by_cases hij : j = i
    · subst hij
      rw [List.getElem?_set_self hi] at hd
      exact .inl ⟨rfl, (Option.some.inj hd).symm⟩
    · rw [List.getElem?_set_ne (Ne.symm hij)] at hd
      exact .inr ⟨hij, hd⟩
  -- only the acting call can send
  have hsender : ∀ j d e, Sends j d e ⟨g, .call i a, { g₁ with calls := g.calls.set i c' }⟩ →
      j = i ∧ d = c := by
    intro j d e hsend
    by_cases hij : j = i
    · subst hij
      exact ⟨rfl, Option.some.inj (hsend.1.symm.trans hc)⟩
    · refine absurd hsend (not_sends ?_)
      intro hd
      show (g.calls.set i c')[j]? = some d
      rw [List.getElem?_set_ne (Ne.symm hij)]
      exact hd
  have hsendHolds : ∀ j d e id, Sends j d e
      ⟨g, .call i a, { g₁ with calls := g.calls.set i c' }⟩ →
      e.approvalRequestId = some id → c.Holds id := by
    intro j d e id hsend hid
    obtain ⟨rfl, rfl⟩ := hsender j d e hsend
    exact ⟨e, by rw [hsend.2.1]; rfl, hid⟩
  refine ⟨h.step_approvals hgs, ?_, ?_, ?_⟩
  · intro j d hd
    rcases hlookup hd with ⟨rfl, rfl⟩ | ⟨hij, hold⟩
    · exact h.acting hsha hc hstep happ
    · refine (h.calls j d hold).frame htable hcreates ?_
      intro id hholds k d' e hsend heq
      exact hij (h.distinct j i d c id hold hc hholds (hsendHolds k d' e id hsend heq))
  · -- a row is claimed while approved, and rows that are held are not
    have hnew : ∀ {j : Nat} {d : ToolCall} {id : String}, j ≠ i → g.calls[j]? = some d →
        d.Holds id → c'.Holds id → False := by
      intro j d id hij hd hholds hholds'
      rcases hstep.holds h.approvals.valid hholds' with hc₀ | ⟨r, hr, happr⟩
      · exact hij (h.distinct j i d c id hd hc hholds hc₀)
      · exact h.not_approved hd hholds hr happr
    intro j k d e id hd he hholds hholds'
    rcases hlookup hd with ⟨rfl, rfl⟩ | ⟨hj, hold⟩
    · rcases hlookup he with ⟨rfl, rfl⟩ | ⟨hk, hold'⟩
      · rfl
      · exact (hnew hk hold' hholds' hholds).elim
    · rcases hlookup he with ⟨rfl, rfl⟩ | ⟨hk, hold'⟩
      · exact (hnew hj hold hholds hholds').elim
      · exact h.distinct j k d e id hold hold' hholds hholds'
  · intro tr htr j d f id hsend hid
    rcases List.mem_append.mp htr with hold | hnew
    · obtain ⟨hash, hspent⟩ := h.sent tr hold j d f id hsend hid
      exact ⟨hash, hspent.tableStep htable⟩
    · obtain rfl : tr = _ := by simpa using hnew
      obtain ⟨rfl, rfl⟩ := hsender j d f hsend
      exact ⟨_, ((h.calls j d hc).spent f id (by rw [hsend.2.1]; rfl) hid).tableStep htable⟩

theorem GatewayOk.step (hsha : Function.Injective sha256) (h : GatewayOk sha256 trs g)
    (hs : g.step rt sha256 a = some g') :
    GatewayOk sha256 (trs ++ [⟨g, a, g'⟩]) g' := by
  have hgs := Gateway.step_cases hs
  have hgs' := hgs
  cases hgs with
  | background | sweep | policy => exact h.step_quiet hgs' rfl
  | start request => exact h.step_start request
  | call i b c c' effect g₁ hc hstep happ => exact h.step_call hsha hc hstep happ

/-- The calls and their rows are in order after every run. -/
theorem gatewayOk (hsha : Function.Injective sha256) {clock : Timestamp}
    (h : IsRun (Gateway.step rt sha256) (.init clock) trs g) : GatewayOk sha256 trs g :=
  IsRun.history (P := GatewayOk sha256) (GatewayOk.init clock)
    (fun _ _ _ _ _ ih hs => ih.step hsha hs) h

end

/-! ## Rows that are executing -/

/-- An executing row stays so unless its outcome is recorded, it is force-expired, or the
    stale-executing sweeper finds it too old. -/
theorem executing_stays {clock : Timestamp} {cause : Cause} {t' : ApprovalTable}
    (h : TableStep clock cause t t') {r : ApprovalRequest}
    (hr : t.findById id = some r) (hx : r.status = .executing) (hsettle : cause ≠ .settle id)
    (hforce : cause ≠ .forceExpire id)
    (hstale : ∀ staleBefore, cause = .sweep staleBefore → staleBefore < r.updatedAt) :
    t'.statusOf id = some .executing := by
  obtain ⟨r', hr', hrow⟩ := h.findById_some hr
  have hrid : r.id = id := (findById_mem hr).2
  rw [statusOf_eq hr']
  have hstatus := hrow.status
  generalize r'.status = y at hstatus
  cases hstatus with
  | stay => rw [hx]
  | decided d now hcause hpend => rw [hx] at hpend; cases hpend
  | claimed happ => rfl
  | executed _ hcause =>
    rw [hrid] at hcause
    exact absurd hcause hsettle
  | failed _ hcause =>
    rcases hcause with hcause | ⟨staleBefore, hcause, hle⟩
    · rw [hrid] at hcause
      exact absurd hcause hsettle
    · exact absurd hle (Int.not_le.mpr (hstale staleBefore hcause))
  | lapsed hopen => rw [hx] at hopen; cases hopen
  | forced _ hcause =>
    rw [hrid] at hcause
    exact absurd hcause hforce

/-- The call has claimed this row, and its forward is not over. -/
def ToolCall.Runs (c : ToolCall) (id : String) : Prop :=
  ∃ f, c.pc.forward? = some f ∧ c.pc.isRunning = true ∧ f.approvalRequestId = some id

variable {c : ToolCall}

theorem ToolCall.Runs.holds (h : c.Runs id) : c.Holds id := by
  obtain ⟨f, hf, _, hid⟩ := h
  exact ⟨f, hf, hid⟩

/-- When the stale-executing sweeper runs, the row of every call whose forward is not over
    was written less than `executingStaleTimeoutMs` before. -/
def SweepsFresh (tr : GatewayTransition) : Prop :=
  ∀ now, tr.act = .recoverStaleExecuting now → ∀ c ∈ tr.pre.calls, ∀ id, c.Runs id →
    ∀ r, tr.pre.approvals.table.findById id = some r →
      now - executingStaleTimeoutMs < r.updatedAt

/-- The rows of calls whose forward is not over are executing. -/
def RunningExecutes (g : Gateway) : Prop :=
  ∀ (i : Nat) (c : ToolCall) (id : String), g.calls[i]? = some c → c.Runs id →
    g.approvals.table.statusOf id = some .executing

section

variable {rt : DslRuntime} {sha256 : String → String} {trs : List GatewayTransition}
  {g g' : Gateway}

variable {s : ApprovalState}

/-- A call comes to run under a row only by claiming it. -/
theorem CallStep.runs {p : PolicyState} {c c' : ToolCall}
    {effect : CallEffect} (h : CallStep rt sha256 s p c effect c') {id : String}
    (hc' : c'.Runs id) : c.Runs id ∨ ∃ ask id' row rows, c.pc = .claim ask id' ∧
      (s.table.claimApprovedForExecutionById id' s.clock).2 = row :: rows ∧ row.id = id ∧
      effect = .approval (.claimApprovedForExecutionById id') := by
  obtain ⟨f, hf, hrun, hid⟩ := hc'
  cases h with
  | stop _ _ hpc | found _ _ _ _ _ hpc => rcases hpc with rfl | rfl <;> cases hf
  | evaluate | ask | create | approved | lost => cases hf
  | allowed route e ev result hpc hev hres hdec =>
    cases hf
    cases hid
  | count ask pc hask hpc => rcases hpc with rfl | ⟨since, rfl⟩ <;> cases hf
  | claimed ask id' row rows hpc hrows =>
    cases hf
    exact .inr ⟨ask, id', row, rows, hpc, hrows, Option.some.inj hid, rfl⟩
  | send f' hpc =>
    obtain rfl := Option.some.inj hf
    exact .inl ⟨f', by rw [hpc]; rfl, by rw [hpc]; rfl, hid⟩
  | advance f' pc hpc hf' hrun' =>
    rw [show ({ c with pc := pc } : ToolCall).pc.isRunning = false from hrun'] at hrun
    cases hrun
  | touch f' id' hpc hid' => exact .inl ⟨f, hf, hrun, hid⟩
  | settle f' id' b n pc hpc hid' hrun' hb hpc' =>
    rcases hpc' with rfl | rfl | ⟨_, hrun', _⟩
    · cases hf
    · cases hf
    · rw [show ({ c with retryCount := n, pc := pc } : ToolCall).pc.isRunning = false
        from hrun'] at hrun
      cases hrun

/-- A call settles only the row it holds, and only after its forward is over. -/
theorem CallStep.settles {p : PolicyState} {c c' : ToolCall}
    {a : ApprovalAction} (h : CallStep rt sha256 s p c (.approval a) c') :
    (∀ id, a.cause = .settle id → c.Holds id ∧ ¬c.Runs id) ∧
    (∀ id, a.cause ≠ .forceExpire id) ∧ ∀ staleBefore, a.cause ≠ .sweep staleBefore := by
  generalize heff : CallEffect.approval a = effect at h
  cases h with
  | create | claimed | lost | touch =>
    obtain rfl := CallEffect.approval.inj heff
    exact ⟨(fun _ h => by cases h), (fun _ h => by cases h), (fun _ h => by cases h)⟩
  | settle f id b n pc hpc hid hrun hb hpc' =>
    obtain rfl := CallEffect.approval.inj heff
    have hcause : a.cause = .settle id := by
      rcases hb with ⟨stored, now, rfl⟩ | ⟨error, now, rfl⟩ <;> rfl
    rw [hcause]
    refine ⟨?_, (fun _ h => by cases h), (fun _ h => by cases h)⟩
    intro id' heq
    obtain rfl := Cause.settle.inj heq
    refine ⟨⟨f, hpc, hid⟩, ?_⟩
    rintro ⟨f', hf', hrun', _⟩
    rw [hrun] at hrun'
    cases hrun'
  | _ => cases heff

/-- Rows of running calls stay executing through statements that settle none of them. -/
private theorem RunningExecutes.statement (h : RunningExecutes g)
    {a : ApprovalAction} (hs : g.approvals.step a = some s) {i : Nat} {c : ToolCall}
    {id : String} (hc : g.calls[i]? = some c) (hrun : c.Runs id)
    (hsettle : a.cause ≠ .settle id) (hforce : a.cause ≠ .forceExpire id)
    (hstale : ∀ r, g.approvals.table.findById id = some r →
      ∀ staleBefore, a.cause = .sweep staleBefore → staleBefore < r.updatedAt) :
    s.table.statusOf id = some .executing := by
  obtain ⟨r, hr, hx⟩ := statusOf_some (h i c id hc hrun)
  exact executing_stays (ApprovalState.step_tableStep hs).2 hr hx hsettle hforce (hstale r hr)

theorem RunningExecutes.step (hok : GatewayOk sha256 trs g) (h : RunningExecutes g)
    {a : GatewayAction} (hs : g.step rt sha256 a = some g')
    (hfresh : SweepsFresh ⟨g, a, g'⟩) : RunningExecutes g' := by
  have hgs := Gateway.step_cases hs
  cases hgs with
  | background b s hb hb' =>
    intro i c id hc hrun
    have hcause : ∀ id, b.cause ≠ .settle id ∧ b.cause ≠ .forceExpire id ∧
        ∀ staleBefore, b.cause ≠ .sweep staleBefore := by
      intro id
      cases b with
      | tick | createInsert | createFind | createExpire | decide | expireStale =>
        exact ⟨(fun h => by cases h), (fun h => by cases h), (fun _ h => by cases h)⟩
      | _ => cases hb
    exact h.statement hb' hc hrun (hcause id).1 (hcause id).2.1
      fun _ _ staleBefore heq => absurd heq ((hcause id).2.2 staleBefore)
  | sweep now s hsweep =>
    intro i c id hc hrun
    refine h.statement hsweep hc hrun (fun h => by cases h) (fun h => by cases h) ?_
    intro r hr staleBefore heq
    obtain rfl := Cause.sweep.inj heq
    exact hfresh now rfl c (List.mem_of_getElem? hc) id hrun r hr
  | policy b p hp => exact h
  | start request =>
    intro i c id hc hrun
    by_cases hi : i < g.calls.length
    · rw [List.getElem?_append_left hi] at hc
      exact h i c id hc hrun
    · rw [List.getElem?_append_right (Nat.le_of_not_lt hi)] at hc
      obtain rfl : c = ⟨request, 0, .resolve⟩ := by simpa using List.mem_of_getElem? hc
      obtain ⟨f, hf, _⟩ := hrun
      cases hf
  | call i b c c' effect g₁ hc hstep happ =>
    -- rows that were held before, by whichever call
    have hold : ∀ (j : Nat) (d : ToolCall) (id : String), g.calls[j]? = some d → d.Runs id →
        g₁.approvals.table.statusOf id = some .executing := by
      intro j d id hd hrun
      rcases Gateway.apply_cases happ with ⟨_, rfl⟩ | ⟨b', s, rfl, hs', rfl⟩ |
        ⟨b', p, _, _, rfl⟩
      · exact h j d id hd hrun
      · obtain ⟨hsettle, hforce, hsweep⟩ := hstep.settles
        refine h.statement hs' hd hrun ?_ (hforce id)
          (fun _ _ staleBefore heq => absurd heq (hsweep staleBefore))
        intro heq
        obtain ⟨hholds, hover⟩ := hsettle id heq
        obtain rfl := hok.distinct j i d c id hd hc hrun.holds hholds
        obtain rfl := Option.some.inj (hd.symm.trans hc)
        exact hover hrun
      · exact h j d id hd hrun
    intro j d id hd hrun
    by_cases hij : j = i
    · subst hij
      have hj : j < g.calls.length := (List.getElem?_eq_some_iff.mp hc).1
      rw [List.getElem?_set_self hj] at hd
      cases hd
      rcases hstep.runs hrun with hrun₀ | ⟨ask, id', row, rows, hpc, hrows, hrowid, rfl⟩
      · exact hold j c id hc hrun₀
      · obtain ⟨hid', r, hr, happr, hexec⟩ :=
          claimApprovedForExecutionById_spec hok.approvals.valid hrows
        obtain rfl : id' = id := hid'.symm.trans hrowid
        obtain ⟨s, hs', rfl⟩ := Gateway.apply_approval happ
        cases hs'
        exact hexec
    · rw [List.getElem?_set_ne (Ne.symm hij)] at hd
      exact hold j d id hd hrun

theorem runningExecutes (hsha : Function.Injective sha256) {clock : Timestamp}
    (h : IsRun (Gateway.step rt sha256) (.init clock) trs g)
    (hfresh : ∀ tr ∈ trs, SweepsFresh tr) : RunningExecutes g := by
  refine IsRun.history_of (G := SweepsFresh) (P := fun _ g => RunningExecutes g) ?_ ?_ h hfresh
  · intro i c id hc
    simp [Gateway.init] at hc
  · intro trs g a g' hrun ih hs hfresh
    exact ih.step (gatewayOk hsha hrun) hs hfresh

end

/-! ## Executions -/

/-- The request hash of a forward in flight that needed approval. -/
def ToolCall.inFlightHash (sha256 : String → String) (c : ToolCall) : Option String :=
  match c.pc with
  | .inFlight f =>
    if f.result.decision = .requireApproval then
      some (c.requestHash sha256 f.route f.result.policyVersion)
    else none
  | _ => none

theorem ToolCall.inFlightHash_some
    {requestHash : String} (h : c.inFlightHash sha256 = some requestHash) :
    ∃ f, c.pc = .inFlight f ∧ f.result.decision = .requireApproval ∧
      c.requestHash sha256 f.route f.result.policyVersion = requestHash := by
  simp only [ToolCall.inFlightHash] at h
  split at h
  · rename_i f hpc
    split at h
    · rename_i hdec
      exact ⟨f, hpc, hdec, Option.some.inj h⟩
    · cases h
  · cases h

/-- Two forwards in flight under one hash would run under one row. -/
theorem inFlight_unique {trs : List GatewayTransition}
    {g : Gateway} (hok : GatewayOk sha256 trs g) (hexec : RunningExecutes g)
    {requestHash : String} {i j : Nat} {d : ToolCall} (hc : g.calls[i]? = some c)
    (hd : g.calls[j]? = some d) (hch : c.inFlightHash sha256 = some requestHash)
    (hdh : d.inFlightHash sha256 = some requestHash) : i = j := by
  -- each forward runs under an executing row with its hash
  have row : ∀ (k : Nat) (b : ToolCall), g.calls[k]? = some b →
      b.inFlightHash sha256 = some requestHash → ∃ r ∈ g.approvals.table,
        b.Holds r.id ∧ r.status = .executing ∧ r.requestHash = requestHash := by
    intro k b hb hbh
    obtain ⟨f, hpc, hdec, hhash⟩ := ToolCall.inFlightHash_some hbh
    have hf : b.pc.forward? = some f := by rw [hpc]; rfl
    obtain ⟨id, hid⟩ := (hok.calls k b hb).gated f hf hdec
    obtain ⟨r, hr, hrhash, _⟩ := (hok.calls k b hb).spent f id hf hid
    have hstatus := hexec k b id hb ⟨f, hf, by rw [hpc]; rfl, hid⟩
    rw [statusOf_eq hr] at hstatus
    obtain ⟨hmem, rfl⟩ := findById_mem hr
    exact ⟨r, hmem, ⟨f, hf, hid⟩, Option.some.inj hstatus, hrhash.trans hhash⟩
  obtain ⟨r, hr, hholds, hx, hrhash⟩ := row i c hc hch
  obtain ⟨r', hr', hholds', hx', hrhash'⟩ := row j d hd hdh
  have hact : r.status.isActive = true := by rw [hx]; rfl
  have hact' : r'.status.isActive = true := by rw [hx']; rfl
  obtain rfl := hok.approvals.valid.active_unique hr hr' hact hact' (hrhash.trans hrhash'.symm)
  exact hok.distinct i j c d r.id hc hd hholds hholds'

private theorem countP_le_one {α : Type} (p : α → Bool) (l : List α)
    (h : ∀ (i j : Nat) (a b : α), l[i]? = some a → l[j]? = some b → p a = true → p b = true →
      i = j) : l.countP p ≤ 1 := by
  induction l with
  | nil => exact Nat.zero_le 1
  | cons a l ih =>
    rw [List.countP_cons]
    split
    · rename_i ha
      have hzero : l.countP p = 0 := by
        rw [List.countP_eq_zero]
        intro b hb hpb
        obtain ⟨j, hj⟩ := List.getElem?_of_mem hb
        have := h 0 (j + 1) a b rfl hj ha hpb
        omega
      omega
    · refine ih ?_
      intro i j b c hb hc hpb hpc
      have := h (i + 1) (j + 1) b c hb hc hpb hpc
      omega

/-- Every forward that needs approval is preceded by a claim of a matching row by the same
    call; no row authorises two forwards; and in runs whose sweeps are fresh, at most one
    forward per request hash is in flight. -/
theorem executions_spend_approvals (rt : DslRuntime) (sha256 : String → String)
    (hsha : Function.Injective sha256) (clock : Timestamp) (trs : List GatewayTransition)
    (g : Gateway) (h : IsRun (Gateway.step rt sha256) (.init clock) trs g) :
    Along (fun before tr => ∀ i c f, Sends i c f tr → f.result.decision = .requireApproval →
      ∃ id, f.approvalRequestId = some id ∧ ∃ tr' ∈ before, Claims i c f id tr') trs ∧
    Along (fun before tr => ∀ i c f id, Sends i c f tr → f.approvalRequestId = some id →
      ∀ tr' ∈ before, ∀ j d e, Sends j d e tr' → e.approvalRequestId ≠ some id) trs ∧
    ((∀ tr ∈ trs, SweepsFresh tr) →
      ∀ requestHash, g.calls.countP (fun c => c.inFlightHash sha256 == some requestHash) ≤ 1) := by
  refine ⟨?_, ?_, ?_⟩
  · intro xs tr ys htrs i c f hsend hdec
    rw [htrs] at h
    have hcall := (gatewayOk hsha h.split.1).calls i c hsend.1
    have hf : c.pc.forward? = some f := by rw [hsend.2.1]; rfl
    obtain ⟨id, hid⟩ := hcall.gated f hf hdec
    exact ⟨id, hid, hcall.claimed f id hf hid⟩
  · intro xs tr ys htrs i c f id hsend hid
    rw [htrs] at h
    exact ((gatewayOk hsha h.split.1).calls i c hsend.1).unsent f id hsend.2.1 hid
  · intro hfresh requestHash
    refine countP_le_one _ _ ?_
    intro i j c d hc hd hch hdh
    exact inFlight_unique (gatewayOk hsha h) (runningExecutes hsha h hfresh) hc hd
      (by simpa using hch) (by simpa using hdh)

/-! ## A modern call that outlasts the sweeper -/

/-- The digests of the two requests that the example runs hash (policy version 0 and 1); any
    other input is kept apart from them. -/
def exampleSha256 (s : String) : String :=
  if s = "[\"v2\",\"alice\",\"files\",\"purge\",\"\x7b\x7d\",0]" then
    "f92eb4a738a9f17975498e690b58f9d0c03cc2d5201075fe6262ae0de6dda370"
  else if s = "[\"v2\",\"alice\",\"files\",\"purge\",\"\x7b\x7d\",1]" then
    "4ad06ac038b6716ed61184a7533e848580c0d27b4e328f3182dbaf0d556217af"
  else "~" ++ s

theorem exampleSha256_injective : Function.Injective exampleSha256 := by
  have hne : ∀ (d s : String), d.toList.head? ≠ some '~' → d ≠ "~" ++ s := by
    intro d s hd h
    have hlist := congrArg (fun d => d.toList.head?) h
    rw [String.toList_append] at hlist
    exact hd hlist
  have hcancel : ∀ s s' : String, "~" ++ s = "~" ++ s' → s = s' := by
    intro s s' h
    have hlist := congrArg String.toList h
    rw [String.toList_append, String.toList_append] at hlist
    exact String.toList_inj.mp (List.append_cancel_left hlist)
  intro s s' h
  simp only [exampleSha256] at h
  split_ifs at h with h₀ h₀' h₁' h₁ h₁' h₂ h₃
  · exact h₀.trans h₀'.symm
  · exact absurd h (by decide)
  · exact absurd h (hne _ s' (by decide))
  · exact absurd h (by decide)
  · exact h₁.trans h₂.symm
  · exact absurd h (hne _ s' (by decide))
  · exact absurd h.symm (hne _ s (by decide))
  · exact absurd h.symm (hne _ s (by decide))
  · exact hcancel s s' h

/-- Globs as equality, conditions that hold: the example policies use neither. -/
def exampleRuntime : DslRuntime := ⟨fun pattern value => pattern == value, fun _ _ _ => true⟩

/-- A modern request for a tool of danger level `approval`. -/
def purgeRequest : ToolCallRequest := ⟨.modern, "alice", .obj [], none⟩

def purgeRoute : Route := ⟨"files", "purge"⟩

/-- Call `i` asks for approval (evaluation `e`, creation `k`, row `id`), which is granted. -/
def askForApproval (i e k : Nat) (id : String) (now : Timestamp) : List GatewayAction :=
  [.start purgeRequest, .call i (.resolve purgeRoute .approval), .policy (.readServer e),
    .policy (.readGlobal e), .policy (.store e), .call i .decided, .call i (.findActive now),
    .call i (.countByHash now), .call i (.countByTool now (.obj [])),
    .approval (.createInsert k id now), .call i .created,
    .approval (.decide id .approved ⟨some "alice", some .user, .socket⟩ none now)]

/-- Call `i` claims the approval and sends its forward. -/
def claimAndSend (i : Nat) (now : Timestamp) : List GatewayAction :=
  [.start purgeRequest, .call i (.resolve purgeRoute .approval), .call i .decided,
    .call i (.findActive now), .call i .claim, .call i .send]

/-- A run in which one approval is asked for, granted and spent. -/
def spendRun : List GatewayAction := askForApproval 0 0 0 "a" 0 ++ claimAndSend 1 0

theorem executions_spend_approvals_spendRun :
    ∃ g, IsRun (Gateway.step exampleRuntime exampleSha256) (.init 0)
        (trace (Gateway.step exampleRuntime exampleSha256) (.init 0) spendRun) g ∧
      ∀ requestHash,
        g.calls.countP (fun c => c.inFlightHash exampleSha256 == some requestHash) ≤ 1 := by
  have hsome : (exec (Gateway.step exampleRuntime exampleSha256) (.init 0)
      spendRun).isSome = true := by
    decide +kernel
  obtain ⟨g, hg⟩ := Option.isSome_iff_exists.mp hsome
  have hrun := isRun_trace _ _ _ hg
  refine ⟨g, hrun, (executions_spend_approvals exampleRuntime exampleSha256
    exampleSha256_injective 0 _ g hrun).2.2 ?_⟩
  intro tr htr now hact
  have hmem := act_mem_of_mem_trace _ _ tr htr
  rw [hact] at hmem
  simp [spendRun, askForApproval, claimAndSend] at hmem

/-- The first forward is still in flight when the sweeper gives up its row, so that an
    identical call is approved and forwarded beside it. -/
def overlapRun : List GatewayAction :=
  spendRun ++ [.approval (.tick 600000), .recoverStaleExecuting 600000] ++
  askForApproval 2 2 1 "b" 600000 ++ claimAndSend 3 600000

theorem modern_forwards_overlap :
    ¬∀ g, IsRun (Gateway.step exampleRuntime exampleSha256) (.init 0)
        (trace (Gateway.step exampleRuntime exampleSha256) (.init 0) overlapRun) g →
      ∀ requestHash,
        g.calls.countP (fun c => c.inFlightHash exampleSha256 == some requestHash) ≤ 1 := by
  have hcount : (exec (Gateway.step exampleRuntime exampleSha256) (.init 0) overlapRun).map
      (fun g => g.calls.countP fun c => c.inFlightHash exampleSha256 ==
        some "f92eb4a738a9f17975498e690b58f9d0c03cc2d5201075fe6262ae0de6dda370") = some 2 := by
    decide +kernel
  obtain ⟨g, hg, htwo⟩ := Option.map_eq_some_iff.mp hcount
  intro h
  have hle := h g (isRun_trace _ _ _ hg)
    "f92eb4a738a9f17975498e690b58f9d0c03cc2d5201075fe6262ae0de6dda370"
  omega

end PetaCore
