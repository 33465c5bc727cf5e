import Mathlib.Data.List.Chain
import PetaCore.ForStd.Run
import PetaCore.Core.ApprovalSystem
import PetaCore.Spec.ApprovalTable

/-!
# The approval life cycle over whole runs

Properties of every run of `ApprovalState.step` from an empty table, that is of every
interleaving of the statements of `ApprovalRepository` by any number of callers.

## Key results

- `step_cases`, `step_tableStep`: what one statement can do
- `approval_lifecycle`: one active row per hash, status histories are paths of the life
  cycle, a row is claimed at most once and only under an approval that is still valid,
  and `createOrGetPending` returns what it inserted or found
-/

namespace PetaCore

open Run ApprovalTable

/-- A transition of the approval system. -/
abbrev ApprovalTransition := Transition ApprovalState ApprovalAction

/-! ## createOrGetPending -/

/-- What one statement of a call of `createOrGetPending` can make of the table and of the
    call. -/
inductive CreateStep (clock : Timestamp) (t : ApprovalTable) (c : CreateCall) :
    ApprovalTable → CreateCall → Prop
  | inserted (id : String) (now : Timestamp) (hpc : c.pc = .insert) (hnow : now ≤ clock)
      (hid : ∀ r ∈ t, r.id ≠ id)
      (hhash : ∀ r ∈ t, r.status.isActive = true → r.requestHash ≠ c.params.requestHash) :
      CreateStep clock t c (t ++ [pendingRow c.params id now])
        { c with pc := .done (.returned true (pendingRow c.params id now)) }
  | conflict (now : Timestamp) (hpc : c.pc = .insert) (hnow : now ≤ clock) :
      CreateStep clock t c t { c with pc := .find now }
  | duplicate (hpc : c.pc = .insert) :
      CreateStep clock t c t { c with pc := .done (.threw CreateCall.duplicateId) }
  | found (now : Timestamp) (row : ApprovalRequest) (hpc : c.pc = .find now)
      (hrow : t.findActiveByRequestHash c.params.requestHash now = some row) :
      CreateStep clock t c t { c with pc := .done (.returned false row) }
  | exhausted (now : Timestamp) (hpc : c.pc = .find now)
      (hretry : maxRetries ≤ c.retryCount) :
      CreateStep clock t c t
        { c with pc := .done (.threw (CreateCall.retriesExhausted c.params.requestHash)) }
  | missed (now : Timestamp) (hpc : c.pc = .find now) (hretry : c.retryCount < maxRetries) :
      CreateStep clock t c t { c with pc := .expire }
  | expired (hpc : c.pc = .expire) :
      CreateStep clock t c (t.expireByRequestHash c.params.requestHash clock).1
        { c with retryCount := c.retryCount + 1, pc := .insert }

variable {c c' : CreateCall} {t t' : ApprovalTable} {id : String}

variable {now : Timestamp}

/-- What the insert of a call can do. -/
theorem CreateCall.insertStep_cases (h : c.insertStep id now t = some (t', c')) :
    c.pc = .insert ∧
    ((t' = t ∧ c' = { c with pc := .find now }) ∨
      (t' = t ∧ c' = { c with pc := .done (.threw CreateCall.duplicateId) }) ∨
      (t' = t ++ [pendingRow c.params id now] ∧
        c' = { c with pc := .done (.returned true (pendingRow c.params id now)) } ∧
        (∀ r ∈ t, r.id ≠ id) ∧
        ∀ r ∈ t, r.status.isActive = true → r.requestHash ≠ c.params.requestHash)) := by
  simp only [CreateCall.insertStep] at h
  split at h
  · rename_i hpc
    refine ⟨hpc, ?_⟩
    simp only [insertPending] at h
    by_cases hconf : t.any fun r => r.requestHash == c.params.requestHash && r.status.isActive
    · rw [if_pos hconf] at h
      simp only [Option.some.injEq, Prod.mk.injEq] at h
      exact .inl ⟨h.1.symm, h.2.symm⟩
    · rw [if_neg hconf] at h
      by_cases hid : t.any fun r => r.id == id
      · rw [if_pos hid] at h
        simp only [Option.some.injEq, Prod.mk.injEq] at h
        exact .inr (.inl ⟨h.1.symm, h.2.symm⟩)
      · rw [if_neg hid] at h
        simp only [Option.some.injEq, Prod.mk.injEq] at h
        refine .inr (.inr ⟨h.1.symm, h.2.symm, ?_, ?_⟩)
        · intro r hr heq
          exact hid (List.any_eq_true.mpr ⟨r, hr, by simp [heq]⟩)
        · intro r hr hact heq
          exact hconf (List.any_eq_true.mpr ⟨r, hr, by simp [heq, hact]⟩)
  · cases h

variable {clock : Timestamp}

theorem CreateCall.insertStep_createStep (hnow : now ≤ clock)
    (h : c.insertStep id now t = some (t', c')) : CreateStep clock t c t' c' := by
  obtain ⟨hpc, ⟨rfl, rfl⟩ | ⟨rfl, rfl⟩ | ⟨rfl, rfl, hid, hhash⟩⟩ :=
    CreateCall.insertStep_cases h
  · exact .conflict now hpc hnow
  · exact .duplicate hpc
  · exact .inserted id now hpc hnow hid hhash

theorem CreateCall.findStep_createStep (h : c.findStep t = some c') : CreateStep clock t c t c' := by
  simp only [CreateCall.findStep] at h
  split at h
  · rename_i now hpc
    split at h
    · rename_i row hrow
      cases h
      exact .found now row hpc hrow
    · split at h
      · rename_i hretry
        cases h
        exact .exhausted now hpc hretry
      · rename_i hretry
        cases h
        exact .missed now hpc (Nat.lt_of_not_le hretry)
  · cases h

theorem CreateCall.expireStep_createStep (h : c.expireStep clock t = some (t', c')) :
    CreateStep clock t c t' c' := by
  simp only [CreateCall.expireStep] at h
  split at h
  · rename_i hpc
    simp only [Option.some.injEq, Prod.mk.injEq] at h
    obtain ⟨rfl, rfl⟩ := h
    exact .expired hpc
  · cases h

namespace CreateStep

variable {clock : Timestamp} {t t' : ApprovalTable} {c c' : CreateCall}

theorem tableStep {cause : Cause} (h : CreateStep clock t c t' c') :
    TableStep clock cause t t' := by
  cases h with
  | inserted id now hpc hnow hid hhash => exact .insert c.params id now hid hhash
  | conflict | duplicate | found | exhausted | missed => exact TableStep.refl t
  | expired hpc => exact expireByRequestHash_tableStep t c.params.requestHash

theorem params_eq (h : CreateStep clock t c t' c') : c'.params = c.params := by
  cases h <;> rfl

end CreateStep

variable {trs : List ApprovalTransition} {clock : Timestamp} {tr : ApprovalTransition}

/-! ## One step -/

/-- What the statement of an action is executed for. -/
def ApprovalAction.cause : ApprovalAction → Cause
  | .decide id d _ _ _ => .decide id d
  | .markExecuted id _ _ | .markFailed id _ _ => .settle id
  | .recoverStaleExecuting staleBefore => .sweep staleBefore
  | .forceExpire id => .forceExpire id
  | _ => .other

variable {s : ApprovalState} {a : ApprovalAction}

variable {s' : ApprovalState}

/-- What one step can do: time passes, a statement rewrites rows in place, a call of
    `createOrGetPending` starts, or one executes its next statement. -/
theorem ApprovalState.step_cases (h : s.step a = some s') :
    (∃ clock, s.clock ≤ clock ∧ s' = { s with clock := clock }) ∨
    (∃ t, TableStep s.clock a.cause s.table t ∧ t.length = s.table.length ∧
      s' = { s with table := t }) ∨ (∃ params, a = .createOrGetPending params ∧
      s' = { s with creates := s.creates ++ [CreateCall.start params] }) ∨
    (∃ call c c' t, s.creates[call]? = some c ∧ CreateStep s.clock s.table c t c' ∧
      s' = s.setCreate call t c') := by
  cases a with
  | tick clock =>
    simp only [ApprovalState.step] at h
    split at h
    · exact .inl ⟨clock, ‹_›, (Option.some.inj h).symm⟩
    · cases h
  | createOrGetPending params =>
    exact .inr (.inr (.inl ⟨params, rfl, (Option.some.inj h).symm⟩))
  | createInsert call id now =>
    simp only [ApprovalState.step] at h
    split at h
    · rename_i hnow
      obtain ⟨c, hc, h⟩ := Option.bind_eq_some_iff.mp h
      obtain ⟨⟨t, c'⟩, hins, h⟩ := Option.bind_eq_some_iff.mp h
      exact .inr (.inr (.inr ⟨call, c, c', t, hc,
        CreateCall.insertStep_createStep hnow hins, (Option.some.inj h).symm⟩))
    · cases h
  | createFind call =>
    obtain ⟨c, hc, h⟩ := Option.bind_eq_some_iff.mp h
    obtain ⟨c', hfind, h⟩ := Option.bind_eq_some_iff.mp h
    exact .inr (.inr (.inr ⟨call, c, c', s.table, hc,
      CreateCall.findStep_createStep hfind, (Option.some.inj h).symm⟩))
  | createExpire call =>
    obtain ⟨c, hc, h⟩ := Option.bind_eq_some_iff.mp h
    obtain ⟨⟨t, c'⟩, hexp, h⟩ := Option.bind_eq_some_iff.mp h
    exact .inr (.inr (.inr ⟨call, c, c', t, hc,
      CreateCall.expireStep_createStep hexp, (Option.some.inj h).symm⟩))
  | decide id d actor reason now =>
    simp only [ApprovalState.step] at h
    split at h
    · rename_i hnow
      exact .inr (.inl ⟨_, decide_tableStep s.table id d actor reason now hnow,
        List.length_map _, (Option.some.inj h).symm⟩)
    · cases h
  | claimApprovedForExecution _ | claimApprovedForExecutionById _ =>
    exact .inr (.inl ⟨_, claimWhere_tableStep s.table _, List.length_map _,
      (Option.some.inj h).symm⟩)
  | touchExecuting id =>
    exact .inr (.inl ⟨_, touchExecuting_tableStep s.table id, List.length_map _,
      (Option.some.inj h).symm⟩)
  | markExecuted id result now =>
    simp only [ApprovalState.step] at h
    split at h
    · exact .inr (.inl ⟨_, markExecuted_tableStep s.table id result now,
        List.length_map _, (Option.some.inj h).symm⟩)
    · cases h
  | markFailed id error now =>
    simp only [ApprovalState.step] at h
    split at h
    · exact .inr (.inl ⟨_, markFailed_tableStep s.table id error now,
        List.length_map _, (Option.some.inj h).symm⟩)
    · cases h
  | expireStale =>
    exact .inr (.inl ⟨_, expireStale_tableStep s.table, List.length_map _,
      (Option.some.inj h).symm⟩)
  | recoverStaleExecuting staleBefore =>
    exact .inr (.inl ⟨_, recoverStaleExecuting_tableStep s.table staleBefore,
      List.length_map _, (Option.some.inj h).symm⟩)
  | forceExpire id =>
    exact .inr (.inl ⟨_, forceExpire_tableStep s.table id, List.length_map _,
      (Option.some.inj h).symm⟩)

/-- Time does not go back, and the table changes as a statement may change it. -/
theorem ApprovalState.step_tableStep (h : s.step a = some s') :
    s.clock ≤ s'.clock ∧ TableStep s.clock a.cause s.table s'.table := by
  rcases ApprovalState.step_cases h with ⟨clock, hle, rfl⟩ | ⟨t, ht, _, rfl⟩ |
    ⟨params, _, rfl⟩ | ⟨call, c, c', t, _, hc, rfl⟩
  · exact ⟨hle, TableStep.refl _⟩
  · exact ⟨Int.le_refl _, ht⟩
  · exact ⟨Int.le_refl _, TableStep.refl _⟩
  · exact ⟨Int.le_refl _, hc.tableStep⟩

/-! ## Status histories -/

/-- Note the status a row has after a step, if it is a new one. -/
def recordStatus (history : List ApprovalStatus) : Option ApprovalStatus → List ApprovalStatus
  | none => history
  | some x => if history.getLast? = some x then history else history ++ [x]

/-- The statuses the row with a given id went through. -/
def statusHistory (id : String) (trs : List ApprovalTransition) : List ApprovalStatus :=
  trs.foldl (fun history tr => recordStatus history (tr.post.table.statusOf id)) []

/-- A path in the life cycle that starts at `pending`, and where it ends. -/
structure IsPath (history : List ApprovalStatus) (last : Option ApprovalStatus) : Prop where
  head : history.head? = none ∨ history.head? = some .pending
  chain : history.IsChain fun x y => y ∈ x.successors
  getLast : history.getLast? = last

theorem IsPath.snoc {history : List ApprovalStatus} {x y : ApprovalStatus}
    (h : IsPath history (some x)) (hy : y ∈ x.successors) : IsPath (history ++ [y]) (some y) := by
  have hne : history ≠ [] := by
    intro hnil
    have := h.getLast
    rw [hnil] at this
    cases this
  refine ⟨?_, ?_, by simp⟩
  · rw [List.head?_append_of_ne_nil _ hne]
    exact h.head
  · rw [List.isChain_append]
    refine ⟨h.chain, List.isChain_singleton y, ?_⟩
    intro a ha b hb
    rw [h.getLast] at ha
    obtain rfl : x = a := by simpa using ha
    obtain rfl : y = b := by simpa using hb
    exact hy

/-- A statement extends the history of a row by one legal change or not at all. -/
theorem IsPath.tableStep {cause : Cause}
    {history : List ApprovalStatus} (h : IsPath history (t.statusOf id))
    (hstep : TableStep clock cause t t') :
    IsPath (recordStatus history (t'.statusOf id)) (t'.statusOf id) := by
  rcases hstep.statusOf id with ⟨hnone, hnone'⟩ | ⟨hnone, hsome⟩ | ⟨r, r', hr, hr', hrow⟩
  · rw [hnone'] at *
    rw [hnone] at h
    exact h
  · -- the row is new: its history was empty
    have hnil : history = [] := by
      have hlast := h.getLast
      rw [hnone] at hlast
      exact List.getLast?_eq_none_iff.mp hlast
    rw [hsome, hnil]
    exact ⟨.inr rfl, List.isChain_singleton _, rfl⟩
  · rw [statusOf_eq hr] at h
    rw [statusOf_eq hr']
    simp only [recordStatus]
    rcases hrow.status.successor with heq | hsucc
    · rw [heq, if_pos h.getLast]
      exact h
    · have hne : ¬history.getLast? = some r'.status := by
        rw [h.getLast]
        intro heq
        rw [Option.some.inj heq] at hsucc
        revert hsucc
        cases r'.status <;> decide
      rw [if_neg hne]
      exact h.snoc hsucc

/-- The status history of every row is a path of the life cycle. -/
theorem statusHistory_isPath (h : IsRun ApprovalState.step (.init clock) trs s)
    (id : String) : IsPath (statusHistory id trs) (s.table.statusOf id) := by
  refine IsRun.history (P := fun trs s => IsPath (statusHistory id trs) (s.table.statusOf id))
    ⟨.inl rfl, List.isChain_nil, rfl⟩ ?_ h
  intro trs s a s' _ ih hs
  have hpath := ih.tableStep (ApprovalState.step_tableStep hs).2
  simpa [statusHistory] using hpath

/-- A row in a terminal status keeps it. -/
theorem terminal_stays {t : ApprovalState} (h : IsRun ApprovalState.step s trs t)
    {x : ApprovalStatus} (hx : x.isTerminal = true) (hs : s.table.statusOf id = some x) :
    t.table.statusOf id = some x := by
  refine IsRun.invariant (I := fun s => s.table.statusOf id = some x) ?_ h hs
  intro s a s' hs hstep
  rcases (ApprovalState.step_tableStep hstep).2.statusOf id with
    ⟨hnone, _⟩ | ⟨hnone, _⟩ | ⟨r, r', hr, hr', hrow⟩
  · rw [hnone] at hs
    cases hs
  · rw [hnone] at hs
    cases hs
  · rw [statusOf_eq hr] at hs
    cases hs
    rw [statusOf_eq hr']
    rcases hrow.status.successor with heq | hsucc
    · rw [heq]
    · exfalso
      revert hx hsucc
      cases r.status <;> cases r'.status <;> decide

/-! ## Claims -/

/-- The transition moves the row with this id to `executing`. -/
def MovesToExecuting (id : String) (tr : ApprovalTransition) : Prop :=
  tr.pre.table.statusOf id ≠ some .executing ∧ tr.post.table.statusOf id = some .executing

/-- The transition records an approve decision on the row with this id, which lapses at
    `expiresAt`, while that is still ahead. -/
def RecordsApproval (id : String) (expiresAt : Timestamp) (tr : ApprovalTransition) : Prop :=
  (∃ actor reason now, tr.act = .decide id .approved actor reason now) ∧
  (∃ r, tr.pre.table.findById id = some r ∧ r.status = .pending ∧ r.expiresAt = expiresAt) ∧
  tr.post.table.statusOf id = some .approved ∧ tr.pre.clock < expiresAt

/-- A claim moves an approved row that has not lapsed. -/
theorem MovesToExecuting.claimed {tr : ApprovalTransition} (h : MovesToExecuting id tr)
    (hstep : ApprovalState.step tr.pre tr.act = some tr.post) :
    ∃ r, tr.pre.table.findById id = some r ∧ r.status = .approved ∧ tr.pre.clock < r.expiresAt := by
  obtain ⟨hpre, hpost⟩ := h
  rcases (ApprovalState.step_tableStep hstep).2.statusOf id with
    ⟨_, hnone⟩ | ⟨_, hsome⟩ | ⟨r, r', hr, hr', hrow⟩
  · rw [hnone] at hpost
    cases hpost
  · rw [hsome] at hpost
    cases hpost
  · rw [statusOf_eq hr] at hpre
    rw [statusOf_eq hr'] at hpost
    refine ⟨r, hr, ?_⟩
    have hstatus := hrow.status
    rw [Option.some.inj hpost] at hstatus
    generalize hy : ApprovalStatus.executing = y at hstatus
    cases hstatus with
    | stay => exact absurd (by rw [hy]) hpre
    | decided d => cases d <;> cases hy
    | claimed happ hexp => exact ⟨happ, hexp⟩
    | executed | failed | lapsed | forced => cases hy

/-- What the transitions made so far say about the row with this id: while it is approved,
    a decision approved it when the clock stood no later than now, and while it has not
    been claimed, no transition claimed it. -/
structure ClaimHistory (id : String) (trs : List ApprovalTransition) (s : ApprovalState) :
    Prop where
  approved : ∀ r, s.table.findById id = some r → r.status = .approved → ∃ d ∈ trs,
    d.pre.clock ≤ s.clock ∧
    (d.pre.clock < r.expiresAt → RecordsApproval id r.expiresAt d)
  unclaimed : (∀ r, s.table.findById id = some r → r.status.isOpen = true) →
    ∀ tr ∈ trs, ¬MovesToExecuting id tr

/-- A row that is open after a statement was open, or absent, before it. -/
theorem open_before {cause : Cause}
    (h : TableStep clock cause t t') (hopen : ∀ r, t'.findById id = some r → r.status.isOpen = true)
    : ∀ r, t.findById id = some r → r.status.isOpen = true := by
  intro r hr
  obtain ⟨r', hr', hrow⟩ := h.findById_some hr
  have ho := hopen r' hr'
  rcases hrow.status.successor with heq | hsucc
  · rw [← heq]
    exact ho
  · revert hsucc ho
    cases r.status <;> cases r'.status <;> decide

theorem ClaimHistory.step {trs : List ApprovalTransition}
    (h : ClaimHistory id trs s) (hs : s.step a = some s') :
    ClaimHistory id (trs ++ [⟨s, a, s'⟩]) s' := by
  obtain ⟨hclock, hstep⟩ := ApprovalState.step_tableStep hs
  refine ⟨?_, ?_⟩
  · intro r' hr' happ
    rcases hstep.statusOf id with ⟨_, hnone⟩ | ⟨_, hsome⟩ | ⟨r, r'', hr, hr'', hrow⟩
    · rw [statusOf_eq hr'] at hnone
      cases hnone
    · rw [statusOf_eq hr', happ] at hsome
      cases hsome
    · obtain rfl : r'' = r' := Option.some.inj (hr''.symm.trans hr')
      have hstatus := hrow.status
      rw [happ] at hstatus
      generalize hy : ApprovalStatus.approved = y at hstatus
      -- the row was approved before, or this step approves it
      cases hstatus with
      | stay =>
        obtain ⟨d, hd, hdclock, hrec⟩ := h.approved r hr hy.symm
        refine ⟨d, List.mem_append_left _ hd, Int.le_trans hdclock hclock, ?_⟩
        rw [hrow.expiresAt]
        exact hrec
      | decided d now hcause hpend hnow hexp =>
        refine ⟨⟨s, a, s'⟩, by simp, hclock, fun hlt => ⟨?_, ?_, ?_, hlt⟩⟩
        · obtain rfl : d = .approved := by
            cases d with
            | approved => rfl
            | rejected => cases hy
          rw [(findById_mem hr).2] at hcause
          cases a with
          | decide id' d' actor reason now' =>
            simp only [ApprovalAction.cause, Cause.decide.injEq] at hcause
            obtain ⟨rfl, rfl⟩ := hcause
            exact ⟨actor, reason, now', rfl⟩
          | _ => cases hcause
        · exact ⟨r, hr, hpend, hrow.expiresAt.symm⟩
        · show s'.table.statusOf id = some .approved
          rw [statusOf_eq hr', happ]
      | claimed | executed | failed | lapsed | forced => cases hy
  · intro hopen tr htr
    rcases List.mem_append.mp htr with hold | hnew
    · exact h.unclaimed (open_before hstep hopen) tr hold
    · obtain rfl : tr = ⟨s, a, s'⟩ := by simpa using hnew
      rintro ⟨_, hpost⟩
      obtain ⟨r', hr', hx⟩ := statusOf_some hpost
      have ho := hopen r' hr'
      rw [hx] at ho
      cases ho

theorem claimHistory (h : IsRun ApprovalState.step (.init clock) trs s)
    (id : String) : ClaimHistory id trs s := by
  refine IsRun.history ⟨?_, ?_⟩ (fun _ _ _ _ _ ih hs => ih.step hs) h
  · intro r hr
    cases hr
  · intro _ tr htr
    cases htr

/-- A claim is the first one of its row, and a decision approved the row earlier. -/
theorem claim_once_approved (h : IsRun ApprovalState.step (.init clock) trs tr.pre)
    (hstep : ApprovalState.step tr.pre tr.act = some tr.post) (id : String)
    (hmove : MovesToExecuting id tr) :
    (∀ tr' ∈ trs, ¬MovesToExecuting id tr') ∧
    ∃ r, tr.pre.table.findById id = some r ∧ tr.pre.clock < r.expiresAt ∧
      ∃ d ∈ trs, RecordsApproval id r.expiresAt d := by
  have hist := claimHistory h id
  obtain ⟨r, hr, happ, hexp⟩ := hmove.claimed hstep
  refine ⟨hist.unclaimed ?_, r, hr, hexp, ?_⟩
  · intro r₁ hr₁
    obtain rfl := Option.some.inj (hr.symm.trans hr₁)
    rw [happ]
    rfl
  · obtain ⟨d, hd, hdclock, hrec⟩ := hist.approved r hr happ
    exact ⟨d, hd, hrec (Int.lt_of_le_of_lt hdclock hexp)⟩

/-! ## Results of createOrGetPending -/

/-- What every call of `createOrGetPending` satisfies between its statements. -/
structure CreateCall.Inv (clock : Timestamp) (c : CreateCall) : Prop where
  retryCount : c.retryCount ≤ maxRetries
  expire : c.pc = .expire → c.retryCount < maxRetries
  find : ∀ now, c.pc = .find now → now ≤ clock

theorem CreateCall.inv_start (clock : Timestamp) (params : CreateApprovalParams) :
    (CreateCall.start params).Inv clock :=
  ⟨Nat.zero_le _, nofun, nofun⟩

theorem CreateCall.Inv.mono {clock clock' : Timestamp} (h : c.Inv clock)
    (hle : clock ≤ clock') : c.Inv clock' :=
  ⟨h.retryCount, h.expire, fun now hnow => Int.le_trans (h.find now hnow) hle⟩

theorem CreateStep.inv (h : CreateStep clock t c t' c') (hc : c.Inv clock) : c'.Inv clock := by
  cases h with
  | inserted | duplicate | found | exhausted =>
    exact ⟨hc.retryCount, nofun, nofun⟩
  | conflict now hpc hnow =>
    refine ⟨hc.retryCount, nofun, fun now' h => ?_⟩
    obtain rfl : now = now' := by simpa using h
    exact hnow
  | missed now hpc hretry => exact ⟨hc.retryCount, fun _ => hretry, nofun⟩
  | expired hpc => exact ⟨hc.expire hpc, nofun, nofun⟩

theorem createInv (h : IsRun ApprovalState.step (.init clock) trs s) :
    ∀ c ∈ s.creates, c.Inv s.clock := by
  have hinit : ∀ c ∈ (ApprovalState.init clock).creates,
      c.Inv (ApprovalState.init clock).clock := by
    intro c hc
    simp [ApprovalState.init] at hc
  refine IsRun.invariant (I := fun s => ∀ c ∈ s.creates, c.Inv s.clock) ?_ h hinit
  intro s a s' ih hs
  rcases ApprovalState.step_cases hs with ⟨clock, hle, rfl⟩ | ⟨t, _, _, rfl⟩ |
    ⟨params, _, rfl⟩ | ⟨call, c, c', t, hc, hstep, rfl⟩
  · intro c hc
    exact (ih c hc).mono hle
  · exact ih
  · intro c hc
    rcases List.mem_append.mp hc with hold | hnew
    · exact ih c hold
    · obtain rfl : c = CreateCall.start params := by simpa using hnew
      exact CreateCall.inv_start _ params
  · intro d hd
    rcases List.mem_or_eq_of_mem_set hd with hold | rfl
    · exact ih d hold
    · exact hstep.inv (ih c (List.mem_of_getElem? hc))

theorem latestCreated_mem {l : List ApprovalRequest} {r : ApprovalRequest}
    (h : latestCreated l = some r) : r ∈ l := by
  induction l with
  | nil => cases h
  | cons a l ih =>
    simp only [latestCreated] at h
    split at h
    · cases h
      exact List.mem_cons_self
    · rename_i r' hr'
      split at h
      · cases h
        exact List.mem_cons_of_mem _ (ih hr')
      · cases h
        exact List.mem_cons_self

/-- The row a read returns is an active row of the hash, and has not lapsed if it can. -/
theorem findActiveByRequestHash_some {requestHash : String}
    {row : ApprovalRequest} (h : t.findActiveByRequestHash requestHash now = some row) :
    row ∈ t ∧ row.requestHash = requestHash ∧ row.status.isActive = true ∧
      (row.status.isOpen = true → now < row.expiresAt) := by
  have ⟨hmem, hmatch⟩ := List.mem_filter.mp (latestCreated_mem h)
  simp only [matchesActive, Bool.and_eq_true, Bool.or_eq_true, beq_iff_eq,
    decide_eq_true_eq] at hmatch
  obtain ⟨hhash, hopen | hexec⟩ := hmatch
  · exact ⟨hmem, hhash, isActive_of_isOpen hopen.1, fun _ => hopen.2⟩
  · refine ⟨hmem, hhash, by rw [hexec]; rfl, fun ho => ?_⟩
    rw [hexec] at ho
    cases ho

/-- What the result of a call of `createOrGetPending` says about the transition that ends
    it, where `c` is the call before that transition:
    `created = true` is reported by the call that added the row, to a table that had no
    active row of the hash; `created = false` comes with an active row of the hash, which
    had not lapsed when the attempt began; and a call that finds neither gives up only
    after all its retries. -/
def CreateResult.Explains (c : CreateCall) (tr : ApprovalTransition) : CreateResult → Prop
  | .returned true row =>
    (∃ id now, now ≤ tr.pre.clock ∧ row = pendingRow c.params id now) ∧
    (∀ r ∈ tr.pre.table, r.id ≠ row.id) ∧
    (∀ r ∈ tr.pre.table, r.status.isActive = true → r.requestHash ≠ c.params.requestHash) ∧
    tr.post.table = tr.pre.table ++ [row]
  | .returned false row =>
    row ∈ tr.pre.table ∧ row.requestHash = c.params.requestHash ∧
    row.status.isActive = true ∧
    (∃ now, c.pc = .find now ∧ now ≤ tr.pre.clock ∧
      (row.status.isOpen = true → now < row.expiresAt)) ∧
    tr.post.table = tr.pre.table
  | .threw message =>
    tr.post.table = tr.pre.table ∧
    (message = CreateCall.duplicateId ∨
      c.retryCount = maxRetries ∧
        message = CreateCall.retriesExhausted c.params.requestHash)

theorem CreateStep.explains {res : CreateResult}
    (h : CreateStep tr.pre.clock tr.pre.table c tr.post.table c') (hinv : c.Inv tr.pre.clock)
    (hpc : c'.pc = .done res) : res.Explains c tr := by
  generalize ht : tr.post.table = t' at h
  cases h with
  | inserted id now hins hnow hid hhash =>
    obtain rfl := CreatePc.done.inj hpc
    exact ⟨⟨id, now, hnow, rfl⟩, hid, hhash, ht⟩
  | duplicate hins =>
    obtain rfl := CreatePc.done.inj hpc
    exact ⟨ht, .inl rfl⟩
  | found now row hfind hrow =>
    obtain rfl := CreatePc.done.inj hpc
    obtain ⟨hmem, hhash, hact, hexp⟩ := findActiveByRequestHash_some hrow
    exact ⟨hmem, hhash, hact, ⟨now, hfind, hinv.find now hfind, hexp⟩, ht⟩
  | exhausted now hfind hretry =>
    obtain rfl := CreatePc.done.inj hpc
    exact ⟨ht, .inr ⟨Nat.le_antisymm hinv.retryCount hretry, rfl⟩⟩
  | conflict | missed | expired => cases hpc

/-- The call at position `call`, which is `c` before the transition, ends in it. -/
def Ends (call : Nat) (c : CreateCall) (res : CreateResult) (tr : ApprovalTransition) : Prop :=
  tr.pre.creates[call]? = some c ∧ (∀ res', c.pc ≠ .done res') ∧
  tr.post.creates[call]? = some { c with pc := .done res }

theorem ends_explains (h : IsRun ApprovalState.step (.init clock) trs tr.pre)
    (hstep : ApprovalState.step tr.pre tr.act = some tr.post) {call : Nat}
    {res : CreateResult} (hends : Ends call c res tr) : res.Explains c tr := by
  obtain ⟨hc, hopen, hc'⟩ := hends
  have hinv := createInv h c (List.mem_of_getElem? hc)
  have hcall : call < tr.pre.creates.length := (List.getElem?_eq_some_iff.mp hc).1
  -- a call that other steps leave as it is has not ended
  have hsame : tr.post.creates[call]? = some c → False := by
    intro heq
    have : c = { c with pc := .done res } := Option.some.inj (heq.symm.trans hc')
    exact hopen res (congrArg CreateCall.pc this)
  rcases ApprovalState.step_cases hstep with ⟨clock, _, hs'⟩ | ⟨t, _, _, hs'⟩ |
    ⟨params, _, hs'⟩ | ⟨call', d, d', t, hd, hcreate, hs'⟩
  · rw [hs'] at hsame
    exact absurd hc hsame
  · rw [hs'] at hsame
    exact absurd hc hsame
  · rw [hs'] at hsame
    refine absurd ?_ hsame
    rw [List.getElem?_append_left hcall]
    exact hc
  · by_cases heq : call' = call
    · subst heq
      obtain rfl := Option.some.inj (hc.symm.trans hd)
      have hd' : tr.post.creates[call']? = some d' := by
        rw [hs']
        simp [ApprovalState.setCreate, hcall]
      have ht : tr.post.table = t := by rw [hs']; rfl
      rw [← ht] at hcreate
      obtain rfl := Option.some.inj (hc'.symm.trans hd')
      exact hcreate.explains hinv rfl
    · rw [hs'] at hsame
      refine absurd ?_ hsame
      simp only [ApprovalState.setCreate]
      rw [List.getElem?_set_ne heq]
      exact hc

/-- A row is only ever added by a call that reports `created = true` for it. -/
theorem grows_created (hstep : ApprovalState.step tr.pre tr.act = some tr.post)
    (hgrow : tr.pre.table.length < tr.post.table.length) :
    ∃ call c row, Ends call c (.returned true row) tr ∧
      tr.post.table = tr.pre.table ++ [row] := by
  rcases ApprovalState.step_cases hstep with ⟨clock, _, hs'⟩ | ⟨t, _, hlen, hs'⟩ |
    ⟨params, _, hs'⟩ | ⟨call, c, c', t, hc, hcreate, hs'⟩
  · rw [hs'] at hgrow
    exact absurd hgrow (Nat.lt_irrefl _)
  · rw [hs', hlen] at hgrow
    exact absurd hgrow (Nat.lt_irrefl _)
  · rw [hs'] at hgrow
    exact absurd hgrow (Nat.lt_irrefl _)
  · have hcall : call < tr.pre.creates.length := (List.getElem?_eq_some_iff.mp hc).1
    have hc' : tr.post.creates[call]? = some c' := by
      rw [hs']
      simp [ApprovalState.setCreate, hcall]
    have ht : tr.post.table = t := by rw [hs']; rfl
    rw [ht] at hgrow
    cases hcreate with
    | inserted id now hpc hnow hid hhash =>
      refine ⟨call, c, pendingRow c.params id now, ⟨hc, ?_, hc'⟩, ht⟩
      intro res hdone
      rw [hpc] at hdone
      cases hdone
    | conflict | duplicate | found | exhausted | missed =>
      exact absurd hgrow (Nat.lt_irrefl _)
    | expired hpc =>
      have hlen : (tr.pre.table.expireByRequestHash c.params.requestHash
          tr.pre.clock).1.length = tr.pre.table.length := List.length_map _
      omega

/-! ## The life cycle -/

/-- At most one active row exists for each hash. -/
theorem ApprovalTable.Valid.countP_le_one (ht : t.Valid) (requestHash : String) :
    t.countP (fun r => r.requestHash == requestHash && r.status.isActive) ≤ 1 := by
  induction t with
  | nil => exact Nat.zero_le _
  | cons a t ih =>
    have ⟨ha, ht'⟩ := List.pairwise_cons.mp ht
    rw [List.countP_cons]
    split
    · rename_i hact
      simp only [Bool.and_eq_true, beq_iff_eq] at hact
      have hzero : t.countP (fun r => r.requestHash == requestHash && r.status.isActive) = 0 := by
        rw [List.countP_eq_zero]
        intro r hr hact'
        simp only [Bool.and_eq_true, beq_iff_eq] at hact'
        exact (ha r hr).2 ⟨hact.2, hact'.2, hact.1.trans hact'.1.symm⟩
      omega
    · exact ih ht'

theorem valid_of_isRun (h : IsRun ApprovalState.step (.init clock) trs s) :
    s.table.Valid :=
  IsRun.invariant (I := fun s => s.table.Valid)
    (fun _ _ _ hv hs => (ApprovalState.step_tableStep hs).2.valid hv) h List.Pairwise.nil

/-- The approval state machine, over every interleaving of the statements. -/
theorem approval_lifecycle (clock : Timestamp) (trs : List ApprovalTransition)
    (s : ApprovalState) (h : IsRun ApprovalState.step (.init clock) trs s) :
    (∀ requestHash,
      s.table.countP (fun r => r.requestHash == requestHash && r.status.isActive) ≤ 1) ∧
    (∀ id, IsPath (statusHistory id trs) (s.table.statusOf id)) ∧
    (∀ xs tr ys, trs = xs ++ tr :: ys → ∀ id x, x.isTerminal = true →
      tr.post.table.statusOf id = some x → s.table.statusOf id = some x) ∧
    Along (fun before tr => ∀ id, MovesToExecuting id tr →
      (∀ tr' ∈ before, ¬MovesToExecuting id tr') ∧
      ∃ r, tr.pre.table.findById id = some r ∧ tr.pre.clock < r.expiresAt ∧
        ∃ d ∈ before, RecordsApproval id r.expiresAt d) trs ∧
    Along (fun _ tr => ∀ call c res, Ends call c res tr → res.Explains c tr) trs ∧
    Along (fun _ tr => tr.pre.table.length < tr.post.table.length →
      ∃ call c row, Ends call c (.returned true row) tr ∧
        tr.post.table = tr.pre.table ++ [row]) trs ∧
    (∀ c ∈ s.creates, c.retryCount ≤ maxRetries) := by
  refine ⟨(valid_of_isRun h).countP_le_one, statusHistory_isPath h, ?_, ?_, ?_, ?_, ?_⟩
  · intro xs tr ys htrs id x hx hpost
    rw [htrs] at h
    exact terminal_stays h.split.2.2 hx hpost
  · intro xs tr ys htrs id hmove
    rw [htrs] at h
    exact claim_once_approved h.split.1 h.split.2.1 id hmove
  · intro xs tr ys htrs call c res hends
    rw [htrs] at h
    exact ends_explains h.split.1 h.split.2.1 hends
  · intro xs tr ys htrs hgrow
    rw [htrs] at h
    exact grows_created h.split.2.1 hgrow
  · intro c hc
    exact (createInv h c hc).retryCount

/-- A request that is approved, claimed and executed. -/
def approvedRun : List ApprovalAction :=
  let params : CreateApprovalParams :=
    { userId := "u", serverId := some "s", toolName := "t", canonicalArgs := .null,
      redactedArgs := .null, policyVersion := 1, requestHash := "h", expiresAt := 600000,
      uniformRequestId := none }
  [.createOrGetPending params, .createInsert 0 "a" 0, .tick 1000,
    .decide "a" .approved ⟨none, none, .adminApi⟩ none 1000,
    .claimApprovedForExecutionById "a", .markExecuted "a" .null 1000]

theorem approval_lifecycle_approvedRun :
    statusHistory "a" (trace ApprovalState.step (.init 0) approvedRun) =
      [.pending, .approved, .executing, .executed] ∧
    ∃ s, exec ApprovalState.step (.init 0) approvedRun = some s ∧
      IsPath (statusHistory "a" (trace ApprovalState.step (.init 0) approvedRun))
        (s.table.statusOf "a") ∧
      s.table.statusOf "a" = some .executed :=
  ⟨by rfl, _, rfl,
    (approval_lifecycle 0 _ _ (isRun_trace _ _ approvedRun rfl)).2.1 "a", by rfl⟩

end PetaCore
