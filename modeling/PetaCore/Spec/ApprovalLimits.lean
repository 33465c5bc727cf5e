import PetaCore.Core.ApprovalService
import PetaCore.Spec.ApprovalLifecycle

/-!
# The limits on the creation of approval requests

A call counts recent creations before it inserts. The limits hold in every run in which the counts
are still below them at the insert; two calls that count at the same time can pass them together.

Key results:
- `CheckState.step_cases`: a step rewrites rows in place, or inserts the row of a call
- `withinLimits_insert`: an insert below the limits keeps them, for every span of time
-/

namespace PetaCore

open Run ApprovalTable

/-! ## Counted rows -/

/-- What the two limits count: the rows of a user and a hash, or of a user, a server and a tool. -/
inductive LimitKey where
  | hash (userId requestHash : String)
  | tool (userId : String) (serverId : Option String) (toolName : String)

namespace LimitKey

/-- Whether a row is counted. -/
def counts : LimitKey → ApprovalRequest → Bool
  | .hash userId requestHash, r => r.userId == userId && r.requestHash == requestHash
  | .tool userId serverId toolName, r =>
    r.userId == userId && r.toolName == toolName && r.serverId == serverId

/-- How many rows may be created in a span. -/
def limit : LimitKey → Nat
  | .hash _ _ => approvalCreateRateLimitPerHashCount
  | .tool _ _ _ => approvalCreateRateLimitCount

/-- The rows created since a moment. -/
def createdSince (k : LimitKey) (since : Timestamp) (t : ApprovalTable) : Nat :=
  t.countP fun r => k.counts r && decide (since ≤ r.createdAt)

/-- The rows created in the 60 seconds from a moment. -/
def createdWithin (k : LimitKey) (start : Timestamp) (t : ApprovalTable) : Nat :=
  t.countP fun r => k.counts r && decide (start ≤ r.createdAt) &&
    decide (r.createdAt ≤ start + approvalCreateRateLimitWindowMs)

theorem counts_congr (k : LimitKey) {r r' : ApprovalRequest} (h : SameRequest r r') :
    k.counts r' = k.counts r := by
  cases k with
  | hash userId requestHash => simp only [counts, h.userId, h.requestHash]
  | tool userId serverId toolName => simp only [counts, h.userId, h.serverId, h.toolName]

theorem createdWithin_map (k : LimitKey) (start : Timestamp) {t : ApprovalTable}
    {f : ApprovalRequest → ApprovalRequest} (hf : ∀ r ∈ t, SameRequest r (f r)) :
    k.createdWithin start (t.map f) = k.createdWithin start t := by
  rw [createdWithin, createdWithin, List.countP_map]
  refine List.countP_congr ?_
  intro r hr
  simp only [Function.comp_apply, k.counts_congr (hf r hr), (hf r hr).createdAt]

/-- What is created within a span that begins later is created since. -/
theorem createdWithin_le_createdSince (k : LimitKey) {since start : Timestamp}
    (h : since ≤ start) (t : ApprovalTable) : k.createdWithin start t ≤ k.createdSince since t := by
  refine List.countP_mono_left ?_
  intro r _ hr
  simp only [Bool.and_eq_true, decide_eq_true_eq] at hr ⊢
  exact ⟨hr.1.1, h.trans hr.1.2⟩

end LimitKey

/-- No more rows than allowed are created in any span of 60 seconds. -/
def WithinLimits (t : ApprovalTable) : Prop := ∀ k start, LimitKey.createdWithin k start t ≤ k.limit

variable {t : ApprovalTable}

theorem WithinLimits.map (h : WithinLimits t)
    {f : ApprovalRequest → ApprovalRequest} (hf : ∀ r ∈ t, SameRequest r (f r)) :
    WithinLimits (t.map f) := by
  intro k start
  rw [k.createdWithin_map start hf]
  exact h k start

variable {now : Timestamp}

/-- A row that is inserted while its counts, taken since 60 seconds before it was created or
earlier, are below the limits keeps them. -/
theorem withinLimits_insert (h : WithinLimits t) {params : CreateApprovalParams}
    {id : String} {since : Timestamp} (hsince : since + approvalCreateRateLimitWindowMs ≤ now)
    (hcounts : ∀ k : LimitKey, k.counts (pendingRow params id now) = true →
      k.createdSince since t < k.limit) :
    WithinLimits (t ++ [pendingRow params id now]) := by
  intro k start
  have hold := h k start
  rw [LimitKey.createdWithin, List.countP_append, List.countP_singleton]
  rw [LimitKey.createdWithin] at hold
  split
  · -- the span of the new row begins after `since`
    rename_i hrow
    simp only [Bool.and_eq_true, decide_eq_true_eq] at hrow
    have hend : now ≤ start + approvalCreateRateLimitWindowMs := hrow.2
    have hstart : since ≤ start := Int.le_of_add_le_add_right (hsince.trans hend)
    have hle := k.createdWithin_le_createdSince hstart t
    have hlt := hcounts k hrow.1.1
    rw [LimitKey.createdWithin] at hle
    omega
  · omega

/-! ## Calls -/

variable {sha256 : String → String}

/-- The window of a call begins 60 seconds before it last read the clock, or earlier, and its row
is that of its input. -/
def CheckOk (sha256 : String → String) (c : ApprovalCheck) : Prop :=
  match c.pc with
  | .countByTool since => since + approvalCreateRateLimitWindowMs ≤ c.read
  | .create since call =>
    since + approvalCreateRateLimitWindowMs ≤ c.read ∧ call.params.userId = c.input.userId ∧
      call.params.serverId = c.input.serverId ∧ call.params.toolName = c.input.toolName ∧
      call.params.requestHash = c.input.requestHash sha256
  | _ => True

/-- The call keeps its window and its row while `createOrGetPending` makes steps. -/
theorem CheckOk.afterCreate {c : ApprovalCheck} (h : CheckOk sha256 c) {since : Timestamp}
    {call call' : CreateCall} (hpc : c.pc = .create since call)
    (hparams : call'.params = call.params) {read : Timestamp} (hread : c.read ≤ read) :
    CheckOk sha256 { c with pc := c.afterCreate sha256 since call', read } := by
  simp only [CheckOk, hpc] at h
  unfold ApprovalCheck.afterCreate
  split
  · split <;> trivial
  · trivial
  · simp only [CheckOk, hparams]
    exact ⟨h.1.trans hread, h.2⟩

theorem CheckOk.findActive {c c' : ApprovalCheck}
    (h : c.findActive sha256 now t = some c') : CheckOk sha256 c' := by
  unfold ApprovalCheck.findActive at h
  split at h
  · simp only at h
    split at h
    · cases h
      trivial
    · cases h
      trivial
  · cases h

theorem CheckOk.countByHash {c c' : ApprovalCheck}
    (h : c.countByHash sha256 now t = some c') : CheckOk sha256 c' := by
  unfold ApprovalCheck.countByHash at h
  split at h
  · simp only at h
    split at h
    · cases h
      trivial
    · cases h
      exact (Int.sub_add_cancel now approvalCreateRateLimitWindowMs).le
  · cases h

theorem CheckOk.countByTool {c c' : ApprovalCheck} (hc : CheckOk sha256 c)
    (hread : c.read ≤ now) {redactedArgs : Json}
    (h : c.countByTool sha256 now redactedArgs t = some c') : CheckOk sha256 c' := by
  unfold ApprovalCheck.countByTool at h
  split at h
  · rename_i since hpc
    simp only [CheckOk, hpc] at hc
    simp only at h
    split at h
    · cases h
      trivial
    · cases h
      exact ⟨hc.trans hread, rfl, rfl, rfl, rfl⟩
  · cases h

/-! ## Steps -/

namespace CheckState

/-- Every call in progress is in order. -/
def Ok (sha256 : String → String) (s : CheckState) : Prop := ∀ c ∈ s.checks, CheckOk sha256 c

variable {c : ApprovalCheck} {s : CheckState}

theorem Ok.setCheck (h : s.Ok sha256) (hc : CheckOk sha256 c) (check : Nat) (t : ApprovalTable) :
    (s.setCheck check t c).Ok sha256 := by
  intro c' hc'
  obtain hc' | rfl := List.mem_or_eq_of_mem_set hc'
  · exact h c' hc'
  · exact hc

theorem reading_eq_some {check : Nat} {now : Timestamp} (h : s.reading check now = some c) :
    s.checks[check]? = some c ∧ c.read ≤ now ∧ now ≤ s.clock := by
  unfold reading at h
  obtain ⟨c', hc', h⟩ := Option.bind_eq_some_iff.mp h
  split at h
  · rename_i hle
    cases h
    exact ⟨hc', hle⟩
  · cases h

/-- The rows are rewritten in place. -/
def Rewrites (t t' : ApprovalTable) : Prop :=
  ∃ f : ApprovalRequest → ApprovalRequest, t' = t.map f ∧ ∀ r ∈ t, SameRequest r (f r)

theorem Rewrites.refl (t : ApprovalTable) : Rewrites t t :=
  ⟨id, (List.map_id t).symm, fun r _ => SameRequest.refl r⟩

/-- A statement that adds no row rewrites the rows in place. -/
theorem Rewrites.of_tableStep {clock : Timestamp} {cause : Cause} {t t' : ApprovalTable}
    (h : TableStep clock cause t t') (hlen : t'.length = t.length) : Rewrites t t' := by
  cases h with
  | update f hf => exact ⟨f, rfl, fun r hr => (hf r hr).toSameRequest⟩
  | insert params id now _ _ =>
    rw [List.length_append, List.length_singleton] at hlen
    omega

/-- A call in the middle of `createOrGetPending` writes its row. -/
structure Inserts (s s' : CheckState) (check : Nat) (id : String) (now : Timestamp)
    (c : ApprovalCheck) (since : Timestamp) (call : CreateCall) : Prop where
  check : s.checks[check]? = some c
  pc : c.pc = .create since call
  read : c.read ≤ now
  idFree : ∀ r ∈ s.table, r.id ≠ id
  hashFree : ∀ r ∈ s.table, r.status.isActive = true → r.requestHash ≠ call.params.requestHash
  table : s'.table = s.table ++ [pendingRow call.params id now]

/-- What a step can do to the table, and that it keeps the calls in order. -/
theorem step_cases {s' : CheckState} {a : CheckAction} (hok : s.Ok sha256)
    (h : s.step sha256 a = some s') :
    s'.Ok sha256 ∧ (Rewrites s.table s'.table ∨
      ∃ check id now c since call, a = .insert check id now ∧
        Inserts s s' check id now c since call) := by
  have hmem : ∀ {check c}, s.checks[check]? = some c → CheckOk sha256 c :=
    fun hc => hok _ (List.mem_of_getElem? hc)
  cases a with
  | tick clock =>
    simp only [CheckState.step] at h
    split at h
    · cases h
      exact ⟨hok, .inl (Rewrites.refl _)⟩
    · cases h
  | checkOrCreateApproval input =>
    cases h
    refine ⟨?_, .inl (Rewrites.refl _)⟩
    intro c hc
    obtain hc | hc := List.mem_append.mp hc
    · exact hok c hc
    · rw [List.mem_singleton.mp hc]
      trivial
  | findActive check now =>
    obtain ⟨c, hc, h⟩ := Option.bind_eq_some_iff.mp h
    obtain ⟨c', hstep, h⟩ := Option.bind_eq_some_iff.mp h
    cases h
    exact ⟨hok.setCheck (CheckOk.findActive hstep) check _, .inl (Rewrites.refl _)⟩
  | countByHash check now =>
    obtain ⟨c, hc, h⟩ := Option.bind_eq_some_iff.mp h
    obtain ⟨c', hstep, h⟩ := Option.bind_eq_some_iff.mp h
    cases h
    exact ⟨hok.setCheck (CheckOk.countByHash hstep) check _, .inl (Rewrites.refl _)⟩
  | countByTool check now redactedArgs =>
    obtain ⟨c, hc, h⟩ := Option.bind_eq_some_iff.mp h
    obtain ⟨c', hstep, h⟩ := Option.bind_eq_some_iff.mp h
    cases h
    obtain ⟨hget, hread, _⟩ := reading_eq_some hc
    exact ⟨hok.setCheck ((hmem hget).countByTool hread hstep) check _, .inl (Rewrites.refl _)⟩
  | insert check id now =>
    obtain ⟨c, hc, h⟩ := Option.bind_eq_some_iff.mp h
    obtain ⟨⟨t, c'⟩, hstep, h⟩ := Option.bind_eq_some_iff.mp h
    cases h
    obtain ⟨hget, hread, _⟩ := reading_eq_some hc
    unfold ApprovalCheck.insert at hstep
    split at hstep
    · rename_i since call hpc
      obtain ⟨⟨t', call'⟩, hinsert, hstep⟩ := Option.bind_eq_some_iff.mp hstep
      cases hstep
      have hparams := (CreateCall.insertStep_createStep (le_refl now) hinsert).params_eq
      refine ⟨hok.setCheck ((hmem hget).afterCreate hpc hparams hread) check _, ?_⟩
      obtain ⟨_, ⟨rfl, _⟩ | ⟨rfl, _⟩ | ⟨rfl, _, hid, hhash⟩⟩ := CreateCall.insertStep_cases hinsert
      · exact .inl (Rewrites.refl _)
      · exact .inl (Rewrites.refl _)
      · exact .inr ⟨check, id, now, c, since, call, rfl, hget, hpc, hread, hid, hhash, rfl⟩
    · cases hstep
  | find check =>
    obtain ⟨c, hc, h⟩ := Option.bind_eq_some_iff.mp h
    obtain ⟨c', hstep, h⟩ := Option.bind_eq_some_iff.mp h
    cases h
    unfold ApprovalCheck.find at hstep
    split at hstep
    · rename_i since call hpc
      obtain ⟨call', hfind, hstep⟩ := Option.bind_eq_some_iff.mp hstep
      cases hstep
      have hcreate : CreateStep s.clock s.table call s.table call' :=
        CreateCall.findStep_createStep hfind
      have hparams := hcreate.params_eq
      exact ⟨hok.setCheck ((hmem hc).afterCreate hpc hparams le_rfl) check _,
        .inl (Rewrites.refl _)⟩
    · cases hstep
  | expire check =>
    obtain ⟨c, hc, h⟩ := Option.bind_eq_some_iff.mp h
    obtain ⟨⟨t, c'⟩, hstep, h⟩ := Option.bind_eq_some_iff.mp h
    cases h
    unfold ApprovalCheck.expire at hstep
    split at hstep
    · rename_i since call hpc
      obtain ⟨⟨t', call'⟩, hexpire, hstep⟩ := Option.bind_eq_some_iff.mp hstep
      cases hstep
      have hparams := (CreateCall.expireStep_createStep hexpire).params_eq
      have hafter := (hmem hc).afterCreate hpc hparams (le_refl c.read)
      refine ⟨hok.setCheck hafter check _, .inl ?_⟩
      unfold CreateCall.expireStep at hexpire
      split at hexpire
      · cases hexpire
        have htable : TableStep s.clock .other s.table
            (s.table.expireByRequestHash call.params.requestHash s.clock).1 :=
          expireByRequestHash_tableStep s.table call.params.requestHash
        exact Rewrites.of_tableStep htable (List.length_map _)
      · cases hexpire
    · cases hstep
  | other a =>
    simp only [CheckState.step] at h
    split at h
    · rename_i hstatement
      obtain ⟨approvals, hstep, h⟩ := Option.bind_eq_some_iff.mp h
      cases h
      refine ⟨hok, .inl ?_⟩
      obtain ⟨clock, _, rfl⟩ | ⟨t, ht, hlen, rfl⟩ | ⟨params, rfl, _⟩ | ⟨call, c, _, _, hc, _⟩ :=
        ApprovalState.step_cases hstep
      · exact Rewrites.refl _
      · exact Rewrites.of_tableStep ht hlen
      · cases hstatement
      · simp at hc
    · cases h

/-! ## Runs -/

/-- When a call writes its row, the counts it compared with the limits are still below them. -/
def CountsHold (sha256 : String → String) (tr : Transition CheckState CheckAction) : Prop :=
  ∀ check id now c since call, tr.act = .insert check id now →
    tr.pre.checks[check]? = some c → c.pc = .create since call →
    (∀ r ∈ tr.pre.table, r.id ≠ id) →
    (∀ r ∈ tr.pre.table, r.status.isActive = true → r.requestHash ≠ call.params.requestHash) →
    tr.pre.table.countRecentCreationsByRequestHash c.input.userId (c.input.requestHash sha256)
        since < approvalCreateRateLimitPerHashCount ∧
      tr.pre.table.countRecentCreationsByTool c.input.userId c.input.serverId c.input.toolName
        since < approvalCreateRateLimitCount

/-- The new row is counted by the two queries of its call and by no others. -/
theorem createdSince_lt {since : Timestamp} {call : CreateCall}
    (hok : CheckOk sha256 c) (hpc : c.pc = .create since call) {t : ApprovalTable}
    (hhash : t.countRecentCreationsByRequestHash c.input.userId (c.input.requestHash sha256)
      since < approvalCreateRateLimitPerHashCount)
    (htool : t.countRecentCreationsByTool c.input.userId c.input.serverId c.input.toolName
      since < approvalCreateRateLimitCount) {id : String} {now : Timestamp} (k : LimitKey)
    (hk : k.counts (pendingRow call.params id now) = true) : k.createdSince since t < k.limit := by
  simp only [CheckOk, hpc] at hok
  obtain ⟨_, huser, hserver, htoolName, hrequestHash⟩ := hok
  cases k with
  | hash userId requestHash =>
    simp only [LimitKey.counts, Bool.and_eq_true, beq_iff_eq] at hk
    obtain ⟨rfl, rfl⟩ := hk
    rw [← huser, ← hrequestHash] at hhash
    exact hhash
  | tool userId serverId toolName =>
    simp only [LimitKey.counts, Bool.and_eq_true, beq_iff_eq] at hk
    obtain ⟨⟨rfl, rfl⟩, rfl⟩ := hk
    rw [← huser, ← hserver, ← htoolName] at htool
    exact htool

/-- In a run in which the counts hold at every insert the limits are kept. -/
theorem withinLimits_of_run {clock : Timestamp} {trs : List (Transition CheckState CheckAction)}
    (hrun : IsRun (step sha256) (init clock) trs s)
    (hcounts : ∀ tr ∈ trs, CountsHold sha256 tr) : WithinLimits s.table := by
  have hinv : s.Ok sha256 ∧ WithinLimits s.table := by
    refine IsRun.history_of (G := CountsHold sha256)
      (P := fun _ s => s.Ok sha256 ∧ WithinLimits s.table) ?_ ?_ hrun hcounts
    · exact ⟨fun c hc => absurd hc List.not_mem_nil, fun k start => Nat.zero_le _⟩
    · intro trs s a s' _ ih hstep hcount
      obtain ⟨hok, hrewrites | ⟨check, id, now, c, since, call, rfl, hins⟩⟩ :=
        step_cases ih.1 hstep
      · obtain ⟨f, htable, hf⟩ := hrewrites
        exact ⟨hok, htable ▸ ih.2.map hf⟩
      · have hc : CheckOk sha256 c := ih.1 c (List.mem_of_getElem? hins.check)
        obtain ⟨hhash, htool⟩ :=
          hcount check id now c since call rfl hins.check hins.pc hins.idFree hins.hashFree
        have hsince : since + approvalCreateRateLimitWindowMs ≤ now := by
          have hread := hc
          simp only [CheckOk, hins.pc] at hread
          exact hread.1.trans hins.read
        refine ⟨hok, hins.table ▸ withinLimits_insert ih.2 hsince ?_⟩
        intro k hk
        exact createdSince_lt hc hins.pc hhash htool k hk
  exact hinv.2

end CheckState

/-- A call up to its insert. -/
private def countUp (check : Nat) : List CheckAction :=
  [.checkOrCreateApproval ⟨"alice", some "files", "purge", .obj [], 1, none, none⟩,
    .findActive check 0, .countByHash check 0, .countByTool check 0 (.obj [])]

/-- The insert of a call, and the rejection of its request. -/
private def insertReject (check : Nat) (id : String) : List CheckAction :=
  [.insert check id 0, .other (.decide id .rejected ⟨none, none, .socket⟩ none 0)]

/-- The request hash of the calls of `countUp`. -/
private def purgeHash : String := computeHash id "alice" (some "files") "purge" (.obj []) 1

/-- The counts hold while the table is empty. -/
private theorem countsHold_of_isEmpty {tr : Transition CheckState CheckAction}
    (h : tr.pre.table.isEmpty = true) : CheckState.CountsHold sha256 tr := by
  intro check id now c since call _ _ _ _ _
  rw [List.isEmpty_iff.mp h]
  show 0 < 3 ∧ 0 < 10
  omega

end PetaCore
