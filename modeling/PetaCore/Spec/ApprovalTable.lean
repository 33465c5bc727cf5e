import Mathlib.Data.List.Pairwise
import PetaCore.Core.ApprovalRepository

/-!
# What a statement can do to approval_request

Every statement of `ApprovalRepository` either rewrites rows in place or adds one
pending row. `TableStep` says once what that can do to the table: which columns stay,
which status changes are possible and under which guard. The invariants of the table
and of whole runs are derived from it, without looking at the statements again.

## Key results

- `TableStep.valid`: the primary key and the partial unique index are kept
- `TableStep.statusOf`: how the status of the row with a given id can change
- one `…_tableStep` lemma for each statement
-/

namespace PetaCore

/-- The status changes of the approval life cycle. -/
def ApprovalStatus.successors : ApprovalStatus → List ApprovalStatus
  | .pending => [.approved, .rejected, .expired]
  | .approved => [.executing, .expired]
  | .executing => [.executed, .failed, .expired]
  | .rejected | .expired | .executed | .failed => []

namespace ApprovalTable

variable {r : ApprovalRequest} {t : ApprovalTable}

/-- What primary key and partial unique index ask of two rows. -/
def Compatible (r r' : ApprovalRequest) : Prop :=
  r.id ≠ r'.id ∧
    ¬(r.status.isActive = true ∧ r'.status.isActive = true ∧ r.requestHash = r'.requestHash)

/-- The table satisfies its primary key and its partial unique index. -/
def Valid (t : ApprovalTable) : Prop := t.Pairwise Compatible

/-- The status of the row with a given id. -/
def statusOf (id : String) (t : ApprovalTable) : Option ApprovalStatus :=
  (t.findById id).map (·.status)

/-- The columns that identify a request, which no statement writes after the insert. -/
structure SameRequest (r r' : ApprovalRequest) : Prop where
  id : r'.id = r.id
  userId : r'.userId = r.userId
  serverId : r'.serverId = r.serverId
  toolName : r'.toolName = r.toolName
  canonicalArgs : r'.canonicalArgs = r.canonicalArgs
  policyVersion : r'.policyVersion = r.policyVersion
  requestHash : r'.requestHash = r.requestHash
  expiresAt : r'.expiresAt = r.expiresAt
  createdAt : r'.createdAt = r.createdAt

/-- What a statement is executed for, as far as it decides which rows it may change. -/
inductive Cause where
  | decide (id : String) (d : Decision)
  | settle (id : String)
  | sweep (staleBefore : Timestamp)
  | forceExpire (id : String)
  | other

/-- The status a statement executed at `clock` can leave row `r` in. -/
inductive StatusStep (clock : Timestamp) (cause : Cause) (r : ApprovalRequest) :
    ApprovalStatus → Prop
  | stay : StatusStep clock cause r r.status
  | decided (d : Decision) (now : Timestamp) (hcause : cause = .decide r.id d)
      (hstatus : r.status = .pending) (hnow : now ≤ clock) (hexp : now < r.expiresAt) :
      StatusStep clock cause r d.status
  | claimed (hstatus : r.status = .approved) (hexp : clock < r.expiresAt) :
      StatusStep clock cause r .executing
  | executed (hstatus : r.status = .executing) (hcause : cause = .settle r.id) :
      StatusStep clock cause r .executed
  | failed (hstatus : r.status = .executing)
      (hcause : cause = .settle r.id ∨
        ∃ staleBefore, cause = .sweep staleBefore ∧ r.updatedAt ≤ staleBefore) :
      StatusStep clock cause r .failed
  | lapsed (hstatus : r.status.isOpen = true) : StatusStep clock cause r .expired
  | forced (hstatus : r.status.isActive = true) (hcause : cause = .forceExpire r.id) :
      StatusStep clock cause r .expired

/-- What a statement executed at `clock` can make of row `r`. -/
structure RowStep (clock : Timestamp) (cause : Cause)
    (r r' : ApprovalRequest) : Prop extends SameRequest r r' where
  status : StatusStep clock cause r r'.status

/-- What a statement executed at `clock` can make of the table: rewrite rows in place,
    or add a pending row that violates neither key. -/
inductive TableStep (clock : Timestamp) (cause : Cause)
    (t : ApprovalTable) : ApprovalTable → Prop
  | update (f : ApprovalRequest → ApprovalRequest)
      (hf : ∀ r ∈ t, RowStep clock cause r (f r)) : TableStep clock cause t (t.map f)
  | insert (params : CreateApprovalParams) (id : String) (now : Timestamp)
      (hid : ∀ r ∈ t, r.id ≠ id)
      (hhash : ∀ r ∈ t, r.status.isActive = true → r.requestHash ≠ params.requestHash) :
      TableStep clock cause t (t ++ [pendingRow params id now])

/-! ## Rows -/

variable {clock : Timestamp} {cause : Cause}

theorem SameRequest.refl (r : ApprovalRequest) : SameRequest r r :=
  ⟨rfl, rfl, rfl, rfl, rfl, rfl, rfl, rfl, rfl⟩

theorem RowStep.refl (r : ApprovalRequest) : RowStep clock cause r r :=
  ⟨SameRequest.refl r, .stay⟩

/-- A status change follows the life cycle. -/
theorem StatusStep.successor {y : ApprovalStatus} (h : StatusStep clock cause r y) :
    y = r.status ∨ y ∈ r.status.successors := by
  cases h with
  | stay => exact .inl rfl
  | decided d now hcause hstatus hnow hexp =>
    right
    rw [hstatus]
    cases d <;> decide
  | claimed hstatus _ | executed hstatus _ | failed hstatus _ => right; rw [hstatus]; decide
  | lapsed hstatus | forced hstatus _ =>
    right
    revert hstatus
    cases r.status <;> decide

/-- No statement makes a settled row active again. -/
theorem StatusStep.isActive {y : ApprovalStatus} (h : StatusStep clock cause r y)
    (hy : y.isActive = true) : r.status.isActive = true := by
  rcases h.successor with rfl | hsucc
  · exact hy
  · revert hsucc hy
    cases r.status <;> cases y <;> decide

theorem Compatible.of_rowStep {r₁ r₂ r₁' r₂' : ApprovalRequest}
    (h₁ : RowStep clock cause r₁ r₁') (h₂ : RowStep clock cause r₂ r₂')
    (h : Compatible r₁ r₂) : Compatible r₁' r₂' := by
  obtain ⟨hid, hact⟩ := h
  refine ⟨by rw [h₁.id, h₂.id]; exact hid, ?_⟩
  rintro ⟨ha₁, ha₂, hhash⟩
  rw [h₁.requestHash, h₂.requestHash] at hhash
  exact hact ⟨h₁.status.isActive ha₁, h₂.status.isActive ha₂, hhash⟩

/-! ## The table -/

theorem TableStep.refl (t : ApprovalTable) : TableStep clock cause t t := by
  have h : TableStep clock cause t (t.map id) := .update id fun r _ => RowStep.refl r
  rwa [List.map_id] at h

variable {t' : ApprovalTable}

/-- Every statement keeps the primary key and the partial unique index. -/
theorem TableStep.valid {t : ApprovalTable} (h : TableStep clock cause t t')
    (ht : t.Valid) : t'.Valid := by
  cases h with
  | update f hf =>
    simp only [Valid, List.pairwise_map]
    exact List.Pairwise.imp_of_mem (fun ha hb hab => hab.of_rowStep (hf _ ha) (hf _ hb)) ht
  | insert params id now hid hhash =>
    simp only [Valid, List.pairwise_append, List.pairwise_singleton, true_and,
      List.mem_singleton, forall_eq]
    refine ⟨ht, fun r hr => ⟨hid r hr, ?_⟩⟩
    rintro ⟨hact, _, heq⟩
    exact hhash r hr hact heq

variable {r' : ApprovalRequest}

/-- In a valid table an active hash belongs to one row. -/
theorem Valid.active_unique (ht : t.Valid) {r : ApprovalRequest} (hr : r ∈ t) (hr' : r' ∈ t)
    (ha : r.status.isActive = true) (ha' : r'.status.isActive = true)
    (hhash : r.requestHash = r'.requestHash) : r = r' := by
  induction t with
  | nil => simp at hr
  | cons a t ih =>
    have ⟨ha₀, ht'⟩ := List.pairwise_cons.mp ht
    rcases List.mem_cons.mp hr with rfl | hmem <;> rcases List.mem_cons.mp hr' with rfl | hmem'
    · rfl
    · exact absurd ⟨ha, ha', hhash⟩ (ha₀ r' hmem').2
    · exact absurd ⟨ha', ha, hhash.symm⟩ (ha₀ r hmem).2
    · exact ih ht' hmem hmem'

/-- In a valid table a row is found under its own id. -/
theorem Valid.findById (ht : t.Valid) (hr : r ∈ t) : t.findById r.id = some r := by
  induction t with
  | nil => simp at hr
  | cons a t ih =>
    have ⟨ha, ht'⟩ := List.pairwise_cons.mp ht
    simp only [ApprovalTable.findById, List.find?_cons]
    rcases List.mem_cons.mp hr with rfl | hmem
    · simp
    · have hne : (a.id == r.id) = false := beq_false_of_ne (ha r hmem).1
      rw [hne]
      exact ih ht' hmem

variable {id : String}

theorem findById_mem (h : t.findById id = some r) : r ∈ t ∧ r.id = id := by
  refine ⟨List.mem_of_find?_eq_some h, ?_⟩
  simpa using List.find?_some h

theorem findById_map (id : String) (f : ApprovalRequest → ApprovalRequest)
    (hf : ∀ r ∈ t, (f r).id = r.id) :
    ApprovalTable.findById id (t.map f) = (t.findById id).map f := by
  induction t with
  | nil => rfl
  | cons a t ih =>
    have ha : (f a).id = a.id := hf a List.mem_cons_self
    have ih' := ih fun r hr => hf r (List.mem_cons_of_mem _ hr)
    simp only [ApprovalTable.findById, List.map_cons, List.find?_cons, ha] at ih' ⊢
    split
    · rfl
    · exact ih'

/-- The row found under an id before a statement, seen after it. -/
theorem TableStep.findById_some {t : ApprovalTable} (h : TableStep clock cause t t')
    (hr : t.findById id = some r) :
    ∃ r', t'.findById id = some r' ∧ RowStep clock cause r r' := by
  cases h with
  | update f hf =>
    refine ⟨f r, ?_, hf r (findById_mem hr).1⟩
    rw [findById_map id f fun r hr => (hf r hr).id, hr]
    rfl
  | insert params id' now hid hhash =>
    refine ⟨r, ?_, RowStep.refl r⟩
    simp only [ApprovalTable.findById, List.find?_append] at hr ⊢
    rw [hr]
    rfl

/-- A row that a statement brings into the table is a fresh pending row. -/
theorem TableStep.findById_none {t : ApprovalTable} (h : TableStep clock cause t t')
    (hr : t.findById id = none) (hr' : t'.findById id = some r') : r'.status = .pending := by
  cases h with
  | update f hf =>
    rw [findById_map id f fun r hr => (hf r hr).id, hr] at hr'
    cases hr'
  | insert params id' now hid hhash =>
    simp only [ApprovalTable.findById, List.find?_append] at hr hr'
    rw [hr, Option.none_or] at hr'
    obtain rfl : r' = pendingRow params id' now := by
      simpa using List.mem_of_find?_eq_some hr'
    rfl

/-- A row of the table after a statement that adds none comes from a row before it. -/
theorem TableStep.mem_of_length {t : ApprovalTable} (h : TableStep clock cause t t')
    (hlen : t'.length = t.length) (hr' : r' ∈ t') : ∃ r ∈ t, RowStep clock cause r r' := by
  cases h with
  | update f hf =>
    obtain ⟨r, hr, rfl⟩ := List.mem_map.mp hr'
    exact ⟨r, hr, hf r hr⟩
  | insert params id now hid hhash =>
    rw [List.length_append, List.length_singleton] at hlen
    omega

theorem statusOf_some {x : ApprovalStatus} (h : t.statusOf id = some x) :
    ∃ r, t.findById id = some r ∧ r.status = x := by
  simpa [statusOf] using h

theorem statusOf_eq (h : t.findById id = some r) : t.statusOf id = some r.status := by
  simp [statusOf, h]

/-- How the status of the row with a given id can change. -/
theorem TableStep.statusOf {t : ApprovalTable} (h : TableStep clock cause t t') (id : String) :
    (t.statusOf id = none ∧ t'.statusOf id = none) ∨
    (t.statusOf id = none ∧ t'.statusOf id = some .pending) ∨
    ∃ r r', t.findById id = some r ∧ t'.findById id = some r' ∧ RowStep clock cause r r' := by
  cases hr : t.findById id with
  | some r =>
    obtain ⟨r', hr', hstep⟩ := h.findById_some hr
    exact .inr (.inr ⟨r, r', rfl, hr', hstep⟩)
  | none =>
    cases hr' : t'.findById id with
    | none => exact .inl (by simp [ApprovalTable.statusOf, hr, hr'])
    | some r' =>
      have hp := h.findById_none hr hr'
      exact .inr (.inl (by simp [ApprovalTable.statusOf, hr, hr', hp]))

/-! ## The statements -/

/-- A statement that rewrites the rows selected by `p` with `f`. -/
theorem updateWhere_tableStep (t : ApprovalTable) (p : ApprovalRequest → Bool)
    (f : ApprovalRequest → ApprovalRequest)
    (hf : ∀ r, p r = true → RowStep clock cause r (f r)) :
    TableStep clock cause t (t.updateWhere p f).1 := by
  refine .update _ fun r _ => ?_
  split
  · exact hf r ‹_›
  · exact RowStep.refl r

/-- What an update of rows selected by a condition does to the row with a given id. -/
theorem findById_updateWhere (t : ApprovalTable) (p : ApprovalRequest → Bool)
    (f : ApprovalRequest → ApprovalRequest) (hf : ∀ r, (f r).id = r.id) (id : String) :
    (t.updateWhere p f).1.findById id =
      (t.findById id).map fun r => if p r then f r else r := by
  refine findById_map id _ fun r _ => ?_
  split
  · exact hf r
  · rfl

theorem isActive_of_isOpen {s : ApprovalStatus} (h : s.isOpen = true) :
    s.isActive = true := by
  revert h
  cases s <;> decide

theorem expireByRequestHash_tableStep (t : ApprovalTable) (requestHash : String) :
    TableStep clock cause t (t.expireByRequestHash requestHash clock).1 := by
  refine updateWhere_tableStep t _ _ fun r hr => ⟨⟨rfl, rfl, rfl, rfl, rfl, rfl, rfl, rfl, rfl⟩, ?_⟩
  simp only [Bool.and_eq_true] at hr
  exact .lapsed hr.1.2

theorem decide_tableStep (t : ApprovalTable) (id : String) (d : Decision)
    (actor : ApprovalDecisionActor) (reason : Option String) (now : Timestamp)
    (hnow : now ≤ clock) :
    TableStep clock (.decide id d) t (t.decide id d actor reason now).1 := by
  refine updateWhere_tableStep t _ _ fun r hr => ⟨⟨rfl, rfl, rfl, rfl, rfl, rfl, rfl, rfl, rfl⟩, ?_⟩
  simp only [Bool.and_eq_true, beq_iff_eq, decide_eq_true_eq] at hr
  obtain ⟨⟨hid, hstatus⟩, hexp⟩ := hr
  exact .decided d now (by rw [hid]) hstatus hnow hexp

theorem claimWhere_tableStep (t : ApprovalTable) (sel : ApprovalRequest → Bool) :
    TableStep clock cause t (t.claimWhere sel clock).1 := by
  refine updateWhere_tableStep t _ _ fun r hr => ⟨⟨rfl, rfl, rfl, rfl, rfl, rfl, rfl, rfl, rfl⟩, ?_⟩
  simp only [Bool.and_eq_true, beq_iff_eq, decide_eq_true_eq] at hr
  exact .claimed hr.1.2 hr.2

theorem markExecuted_tableStep (t : ApprovalTable) (id : String) (result : Json)
    (now : Timestamp) : TableStep clock (.settle id) t (t.markExecuted id result now).1 := by
  refine updateWhere_tableStep t _ _ fun r hr => ⟨⟨rfl, rfl, rfl, rfl, rfl, rfl, rfl, rfl, rfl⟩, ?_⟩
  simp only [Bool.and_eq_true, beq_iff_eq] at hr
  exact .executed hr.2 (by rw [hr.1])

theorem markFailed_tableStep (t : ApprovalTable) (id error : String) (now : Timestamp) :
    TableStep clock (.settle id) t (t.markFailed id error now).1 := by
  refine updateWhere_tableStep t _ _ fun r hr => ⟨⟨rfl, rfl, rfl, rfl, rfl, rfl, rfl, rfl, rfl⟩, ?_⟩
  simp only [Bool.and_eq_true, beq_iff_eq] at hr
  exact .failed hr.2 (.inl (by rw [hr.1]))

theorem touchExecuting_tableStep (t : ApprovalTable) (id : String) :
    TableStep clock cause t (t.touchExecuting id clock).1 := by
  refine updateWhere_tableStep t _ _ fun r _ => ⟨⟨rfl, rfl, rfl, rfl, rfl, rfl, rfl, rfl, rfl⟩, ?_⟩
  exact .stay

theorem expireStale_tableStep (t : ApprovalTable) :
    TableStep clock cause t (t.expireStale clock).1 := by
  refine updateWhere_tableStep t _ _ fun r hr => ⟨⟨rfl, rfl, rfl, rfl, rfl, rfl, rfl, rfl, rfl⟩, ?_⟩
  simp only [Bool.and_eq_true] at hr
  exact .lapsed hr.1

theorem recoverStaleExecuting_tableStep (t : ApprovalTable) (staleBefore : Timestamp) :
    TableStep clock (.sweep staleBefore) t (t.recoverStaleExecuting staleBefore clock).1 := by
  refine updateWhere_tableStep t _ _ fun r hr => ⟨⟨rfl, rfl, rfl, rfl, rfl, rfl, rfl, rfl, rfl⟩, ?_⟩
  simp only [Bool.and_eq_true, beq_iff_eq, decide_eq_true_eq] at hr
  exact .failed hr.1 (.inr ⟨staleBefore, rfl, hr.2⟩)

theorem forceExpire_tableStep (t : ApprovalTable) (id : String) :
    TableStep clock (.forceExpire id) t (t.forceExpire id clock).1 := by
  refine updateWhere_tableStep t _ _ fun r hr => ⟨⟨rfl, rfl, rfl, rfl, rfl, rfl, rfl, rfl, rfl⟩, ?_⟩
  simp only [Bool.and_eq_true, beq_iff_eq] at hr
  exact .forced hr.2 (by rw [hr.1])

end ApprovalTable

end PetaCore
