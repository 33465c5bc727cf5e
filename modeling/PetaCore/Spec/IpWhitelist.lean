import PetaCore.Core.IpWhitelist
import PetaCore.ForStd.Run

/-!
# The enforced whitelist converges to the stored one

Each operation that writes the table reloads the list after it, so the last write is read by some
reload. The list in memory is that of the last assignment, which is the last read as long as the
reloads assign in the order in which they have read.

Key results:
- `Ok.step`: each step keeps a reload outstanding while the list in memory is old
- `whitelist_converges`: when all operations have returned, the stored list is in force
- `whitelist_stays_old`: two reloads that assign in the other order leave the old list in force
-/

namespace PetaCore

open Run

namespace IpWhitelistState

variable {s s' : IpWhitelistState} {call : WhitelistCall}

/-- The list that the table asks for. -/
def stored (s : IpWhitelistState) : List String := whitelistOf s.findAll

/-- The list of the table as it is now has yet to be put in memory by the call (or never will be, as
    the call has failed). -/
def Outstanding (writes : Nat) (call : WhitelistCall) : Prop :=
  call.origin ≠ .refresh ∧
  match call.stage with
  | .created _ | .reloading | .failed => True
  | .loading _ readAt => readAt = writes
  | .called _ | .deleting _ | .creating _ | .creatingWildcard | .deletingWildcard | .returned
  | .rejected _ => False

/-- The statements that only the operations of the admins have. -/
def ofAdmin : WhitelistStage → Bool
  | .called _ | .deleting _ | .creating _ | .created _ | .creatingWildcard | .deletingWildcard => true
  | .reloading | .loading _ _ | .returned | .rejected _ | .failed => false

structure Ok (s : IpWhitelistState) : Prop where
  settled : (∃ i call, s.calls.get? i = some call ∧ Outstanding s.writes call) ∨
    (s.loadedAt = s.writes ∧ s.whitelist = s.stored)
  read : ∀ i call records readAt, s.calls.get? i = some call →
    call.stage = .loading records readAt →
    readAt ≤ s.writes ∧ (readAt = s.writes → records = s.findAll)
  admin : ∀ i call, s.calls.get? i = some call → ofAdmin call.stage = true →
    call.origin = .admin

theorem ok_init (rows : List IpWhitelistRow) (nextId now : Nat) : Ok (init rows nextId now) := by
  have hcalls : ∀ i call, (init rows nextId now).calls.get? i = some call →
      call = ⟨.startup, .reloading⟩ := by
    intro i call hcall
    rcases Table.get?_add_eq_some.mp hcall with ⟨_, rfl⟩ | hempty
    · rfl
    · simp at hempty
  constructor
  case settled =>
    exact .inl ⟨0, ⟨.startup, .reloading⟩, rfl, by simp [Outstanding]⟩
  case read =>
    intro i call records readAt hcall hstage
    simp [hcalls i call hcall] at hstage
  case admin =>
    intro i call hcall hstage
    simp [hcalls i call hcall, ofAdmin] at hstage

/-! ## What a step keeps -/

/-- A call has been added that has read nothing yet. -/
theorem Ok.add {s : IpWhitelistState} (h : Ok s) (call : WhitelistCall)
    (hread : ∀ records readAt, call.stage ≠ .loading records readAt)
    (hadmin : ofAdmin call.stage = true → call.origin = .admin) :
    Ok { s with calls := s.calls.add call } := by
  have hcases : ∀ j call', (s.calls.add call).get? j = some call' →
      call' = call ∨ s.calls.get? j = some call' := by
    intro j call' hcall'
    rcases Table.get?_add_eq_some.mp hcall' with ⟨_, rfl⟩ | hold
    · exact .inl rfl
    · exact .inr hold
  constructor
  case settled =>
    rcases h.settled with ⟨j, call', hcall', hout⟩ | hsettled
    · exact .inl ⟨j, call', Table.get?_add_eq_some.mpr (.inr hcall'), hout⟩
    · exact .inr hsettled
  case read =>
    intro j call' records readAt hcall' hstage
    rcases hcases j call' hcall' with rfl | hold
    · exact absurd hstage (hread records readAt)
    · exact h.read j call' records readAt hold hstage
  case admin =>
    intro j call' hcall' hstage
    rcases hcases j call' hcall' with rfl | hold
    · exact hadmin hstage
    · exact h.admin j call' hold hstage

/-- A call goes on to a stage in which it is still outstanding if it was before. The table and the
    list in memory are as they were, or the call is outstanding anyway. -/
theorem Ok.goes (h : Ok s) {i : Nat} {call next : WhitelistCall}
    (hcall : s.calls.get? i = some call) (hcalls : s'.calls = s.calls.put i next)
    (hrows : s'.rows = s.rows) (hwrites : s'.writes = s.writes)
    (hout : Outstanding s.writes next ∨ (¬ Outstanding s.writes call ∧
      s'.loadedAt = s.loadedAt ∧ s'.whitelist = s.whitelist))
    (hread : ∀ records readAt, next.stage = .loading records readAt →
      records = s.findAll ∧ readAt = s.writes)
    (hadmin : ofAdmin next.stage = true → next.origin = .admin) : Ok s' := by
  have hget : ∀ j, s'.calls.get? j = if j = i then some next else s.calls.get? j := by
    intro j
    rw [hcalls, Table.get?_put hcall]
  have hfind : s'.findAll = s.findAll := by simp only [findAll, hrows]
  have hstored : s'.stored = s.stored := by simp only [stored, hfind]
  constructor
  case settled =>
    rcases hout with hout | ⟨hout, hloaded, hwhitelist⟩
    · exact .inl ⟨i, next, by simp [hget], by rw [hwrites]; exact hout⟩
    · rcases h.settled with ⟨j, call', hcall', hout'⟩ | hsettled
      · have hji : j ≠ i := by
          rintro rfl
          rw [hcall] at hcall'
          cases hcall'
          exact hout hout'
        exact .inl ⟨j, call', by rw [hget, if_neg hji]; exact hcall', by rw [hwrites]; exact hout'⟩
      · rw [hloaded, hwhitelist, hwrites, hstored]
        exact .inr hsettled
  case read =>
    intro j call' records readAt hcall' hstage
    rw [hget] at hcall'
    rw [hwrites, hfind]
    split at hcall'
    · cases hcall'
      obtain ⟨rfl, rfl⟩ := hread records readAt hstage
      exact ⟨Nat.le_refl _, fun _ => rfl⟩
    · exact h.read j call' records readAt hcall' hstage
  case admin =>
    intro j call' hcall' hstage
    rw [hget] at hcall'
    split at hcall'
    · cases hcall'
      exact hadmin hstage
    · exact h.admin j call' hcall' hstage

/-- A call writes the table, and then has to reload the list. -/
theorem Ok.writes (h : Ok s) {i : Nat} {stage : WhitelistStage} (hcall : s.calls.get? i = some call)
    (hcalls : s'.calls = s.calls.put i ⟨call.origin, stage⟩) (hwrites : s'.writes = s.writes + 1)
    (horigin : call.origin = .admin)
    (hstage : stage = .reloading ∨ ∃ newIps, stage = .created newIps) : Ok s' := by
  have hget : ∀ j, s'.calls.get? j =
      if j = i then some ⟨call.origin, stage⟩ else s.calls.get? j := by
    intro j
    rw [hcalls, Table.get?_put hcall]
  constructor
  case settled =>
    refine .inl ⟨i, ⟨call.origin, stage⟩, by simp [hget], ?_⟩
    rcases hstage with rfl | ⟨newIps, rfl⟩
    all_goals simp [Outstanding, horigin]
  case read =>
    intro j call' records readAt hcall' hloading
    rw [hget] at hcall'
    split at hcall'
    · cases hcall'
      rcases hstage with rfl | ⟨newIps, rfl⟩
      all_goals cases hloading
    · -- what has been read before is now old
      have hold := (h.read j call' records readAt hcall' hloading).1
      rw [hwrites]
      exact ⟨by omega, by omega⟩
  case admin =>
    intro j call' hcall' hof
    rw [hget] at hcall'
    split at hcall'
    · cases hcall'
      exact horigin
    · exact h.admin j call' hcall' hof

/-- A reload puts in memory what it has read, which is not older than what is there. -/
theorem Ok.assigned (h : Ok s) {i : Nat} {records : List IpWhitelistRow} {readAt : Nat}
    (hcall : s.calls.get? i = some call) (hstage : call.stage = .loading records readAt)
    (horder : s.loadedAt ≤ readAt) (hcalls : s'.calls = s.calls.put i ⟨call.origin, .returned⟩)
    (hrows : s'.rows = s.rows) (hwrites : s'.writes = s.writes) (hloaded : s'.loadedAt = readAt)
    (hwhitelist : s'.whitelist = whitelistOf records) : Ok s' := by
  have hget : ∀ j, s'.calls.get? j =
      if j = i then some ⟨call.origin, .returned⟩ else s.calls.get? j := by
    intro j
    rw [hcalls, Table.get?_put hcall]
  have hfind : s'.findAll = s.findAll := by simp only [findAll, hrows]
  obtain ⟨hle, hrecords⟩ := h.read i call records readAt hcall hstage
  constructor
  case settled =>
    by_cases hnow : readAt = s.writes
    · refine .inr ⟨by omega, ?_⟩
      rw [hwhitelist, hrecords hnow, stored, hfind]
    · rcases h.settled with ⟨j, call', hcall', hout⟩ | ⟨hlast, _⟩
      · have hji : j ≠ i := by
          rintro rfl
          rw [hcall] at hcall'
          cases hcall'
          simp [Outstanding, hstage, hnow] at hout
        exact .inl ⟨j, call', by rw [hget, if_neg hji]; exact hcall', by rw [hwrites]; exact hout⟩
      · omega
  case read =>
    intro j call' records' readAt' hcall' hstage'
    rw [hget] at hcall'
    rw [hwrites, hfind]
    split at hcall'
    · cases hcall'
      cases hstage'
    · exact h.read j call' records' readAt' hcall' hstage'
  case admin =>
    intro j call' hcall' hof
    rw [hget] at hcall'
    split at hcall'
    · cases hcall'
      cases hof
    · exact h.admin j call' hcall' hof

/-! ## The steps -/

theorem Ok.begin {s : IpWhitelistState} (h : Ok s) {i : Nat} {operation : IpWhitelistOperation}
    (hcall : s.calls.get? i = some call) (hstage : call.stage = .called operation) :
    Ok (s.begin i call.origin operation) := by
  have horigin : call.origin = .admin := h.admin i call hcall (by rw [hstage]; rfl)
  -- a first statement that only reads
  have hreads : ∀ stage, (∀ records readAt, stage ≠ .loading records readAt) →
      Ok (s.setStage i call.origin stage) := by
    intro stage hloading
    refine h.goes hcall rfl rfl rfl (.inr ⟨?_, rfl, rfl⟩) ?_ (fun _ => horigin)
    · simp [Outstanding, hstage]
    · intro records readAt hread
      exact absurd hread (hloading records readAt)
  cases operation with
  | update whitelist => exact h.writes hcall rfl rfl horigin (.inl rfl)
  | delete _ | add _ | allowAll | denyAll =>
    simp only [IpWhitelistState.begin]
    split
    all_goals exact hreads _ (by simp)

theorem Ok.statement (h : Ok s) {i : Nat} (hcall : s.calls.get? i = some call)
    (hstep : s.statement i call = some s') : Ok s' := by
  have horigin : ofAdmin call.stage = true → call.origin = .admin := h.admin i call hcall
  cases hstage : call.stage with
  | called operation =>
    simp only [IpWhitelistState.statement, hstage, Option.some.injEq] at hstep
    rw [← hstep]
    exact h.begin hcall hstage
  | deleting _ | creatingWildcard | deletingWildcard =>
    simp only [IpWhitelistState.statement, hstage, Option.some.injEq] at hstep
    rw [← hstep]
    exact h.writes hcall rfl rfl (horigin (by rw [hstage]; rfl)) (.inl rfl)
  | creating newIps =>
    simp only [IpWhitelistState.statement, hstage, Option.some.injEq] at hstep
    rw [← hstep]
    exact h.writes hcall rfl rfl (horigin (by rw [hstage]; rfl)) (.inr ⟨newIps, rfl⟩)
  | created newIps =>
    simp only [IpWhitelistState.statement, hstage, Option.some.injEq] at hstep
    rw [← hstep]
    have hadmin := horigin (by rw [hstage]; rfl)
    refine h.goes hcall rfl rfl rfl (.inl ?_) ?_ (fun _ => hadmin)
    · simp [Outstanding, hadmin]
    · simp
  | reloading =>
    simp only [IpWhitelistState.statement, hstage, Option.some.injEq] at hstep
    rw [← hstep]
    refine h.goes hcall rfl rfl rfl ?_ ?_ (by simp [ofAdmin])
    · by_cases hrefresh : call.origin = .refresh
      · exact .inr ⟨by simp [Outstanding, hstage, hrefresh], rfl, rfl⟩
      · exact .inl (by simp [Outstanding, hrefresh])
    · rintro records readAt ⟨⟩
      exact ⟨rfl, rfl⟩
  | loading _ _ | returned | rejected _
  | failed => simp [IpWhitelistState.statement, hstage] at hstep

theorem Ok.statementFails (h : Ok s) {i : Nat} (hcall : s.calls.get? i = some call)
    (hstep : s.statementFails i call = some s') : Ok s' := by
  simp only [IpWhitelistState.statementFails] at hstep
  split at hstep
  · cases hstep
  · cases hstep
  · cases hstep
  · cases hstep
  · split at hstep
    · next hrefresh =>
      cases hstep
      refine h.goes hcall rfl rfl rfl (.inr ⟨?_, rfl, rfl⟩) (by simp) (by simp [ofAdmin])
      simp [Outstanding, hrefresh]
    all_goals
      cases hstep
      exact h.goes hcall rfl rfl rfl (.inl (by simp [Outstanding])) (by simp) (by simp [ofAdmin])

/-- The condition on a step. A reload does not put in memory rows that were read before the table
    was written, when rows read after it are there. -/
def inOrder (s : IpWhitelistState) : IpWhitelistAction → Bool
  | .assign i =>
    match s.calls.get? i with
    | some ⟨_, .loading _ readAt⟩ => s.loadedAt ≤ readAt
    | _ => true
  | _ => true

theorem Ok.step {a : IpWhitelistAction} (h : Ok s) (hstep : s.step a = some s')
    (horder : s.inOrder a = true) : Ok s' := by
  cases a with
  | request request =>
    simp only [IpWhitelistState.step] at hstep
    split at hstep
    · cases hstep
      exact h.add _ (by simp) (by simp [ofAdmin])
    · cases hstep
      exact h.add _ (by simp) (by simp)
  | access =>
    simp only [IpWhitelistState.step] at hstep
    split at hstep
    · cases hstep
      exact h.add _ (by simp) (by simp [ofAdmin])
    · cases hstep
      exact h
  | tick time =>
    cases hstep
    exact ⟨h.settled, h.read, h.admin⟩
  | statement i =>
    obtain ⟨call, hcall, hstep⟩ := Option.bind_eq_some_iff.mp hstep
    exact h.statement hcall hstep
  | statementFails i =>
    obtain ⟨call, hcall, hstep⟩ := Option.bind_eq_some_iff.mp hstep
    exact h.statementFails hcall hstep
  | assign i =>
    obtain ⟨call, hcall, hstep⟩ := Option.bind_eq_some_iff.mp hstep
    simp only [IpWhitelistState.assign] at hstep
    split at hstep
    · next records readAt hstage =>
      cases hstep
      have horder' : s.loadedAt ≤ readAt := by
        obtain ⟨origin, stage⟩ := call
        obtain rfl := hstage
        simpa [inOrder, hcall] using horder
      exact h.assigned hcall hstage horder' rfl rfl rfl rfl rfl
    · cases hstep

/-! ## Runs -/

theorem ok_of_isRun {rows : List IpWhitelistRow} {nextId now : Nat} {s : IpWhitelistState}
    {trs : List (Transition IpWhitelistState IpWhitelistAction)}
    (hrun : IsRun step (init rows nextId now) trs s)
    (horder : ∀ tr ∈ trs, tr.pre.inOrder tr.act = true) : Ok s := by
  apply hrun.history_of (G := fun tr => tr.pre.inOrder tr.act = true) (P := fun _ s => Ok s)
  · exact ok_init rows nextId now
  · intro _ _ _ _ _ hok hstep hin
    exact hok.step hstep hin
  · exact horder

/-- The enforced whitelist converges to the stored one: when the service has been initialized and
    all operations have returned, the list in memory is that of the table. -/
theorem whitelist_converges {rows : List IpWhitelistRow} {nextId now : Nat} {s : IpWhitelistState}
    {trs : List (Transition IpWhitelistState IpWhitelistAction)}
    (hrun : IsRun step (init rows nextId now) trs s)
    (horder : ∀ tr ∈ trs, tr.pre.inOrder tr.act = true)
    (hreturned : ∀ i call, s.calls.get? i = some call → call.origin ≠ .refresh →
      call.stage = .returned ∨ ∃ error, call.stage = .rejected error) :
    s.whitelist = whitelistOf s.findAll := by
  rcases (ok_of_isRun hrun horder).settled with ⟨i, call, hcall, horigin, hout⟩ | ⟨_, hsettled⟩
  · rcases hreturned i call hcall horigin with hstage | ⟨error, hstage⟩
    all_goals simp [hstage] at hout
  · exact hsettled

/-- A call that is not a refresh has returned, or has been rejected at once. -/
def hasReturned (call : WhitelistCall) : Bool :=
  match call.stage with
  | .returned | .rejected _ => true
  | _ => call.origin = .refresh

theorem returned_of_hasReturned (h : hasReturned call = true) (horigin : call.origin ≠ .refresh) :
    call.stage = .returned ∨ ∃ error, call.stage = .rejected error := by
  cases hstage : call.stage with
  | returned => exact .inl rfl
  | rejected error => exact .inr ⟨error, rfl⟩
  | _ => simp [hasReturned, hstage, horigin] at h

/-- Two updates whose reloads cross, but do not assign out of order. -/
def crossedActions : List IpWhitelistAction :=
  [.statement 0, .assign 0, .request (.update (some ["10.0.0.1"])),
    .request (.update (some ["10.0.0.2", "10.0.0.3"])), .statement 1, .statement 1, .statement 2,
    .assign 1, .statement 2, .assign 2]

theorem whitelist_converges_crossedActions :
    ∃ s, exec step (init [⟨4, "10.0.0.4"⟩] 5 0) crossedActions = some s ∧
      s.whitelist = whitelistOf s.findAll := by
  have hrun : IsRun step (init [⟨4, "10.0.0.4"⟩] 5 0)
      (trace step (init [⟨4, "10.0.0.4"⟩] 5 0) crossedActions)
      ((exec step (init [⟨4, "10.0.0.4"⟩] 5 0) crossedActions).get (by decide)) :=
    isRun_trace _ _ _ (by simp)
  refine ⟨_, by simp, whitelist_converges hrun (by decide) ?_⟩
  intro i call hcall horigin
  exact returned_of_hasReturned (Table.of_any_not (by decide) hcall) horigin

/-- Two updates whose reloads assign in the other order. -/
def overtakenActions : List IpWhitelistAction :=
  [.statement 0, .assign 0, .request (.update (some ["10.0.0.1"])),
    .request (.update (some ["10.0.0.2"])), .statement 1, .statement 1, .statement 2,
    .statement 2, .assign 2, .assign 1]

theorem whitelist_stays_old :
    ¬ ∀ (rows : List IpWhitelistRow) (nextId now : Nat) (s : IpWhitelistState)
      (trs : List (Transition IpWhitelistState IpWhitelistAction)),
      IsRun step (init rows nextId now) trs s →
      (∀ i call, s.calls.get? i = some call → call.origin ≠ .refresh →
        call.stage = .returned ∨ ∃ error, call.stage = .rejected error) →
      s.whitelist = whitelistOf s.findAll := by
  intro h
  have hrun : IsRun step (init [] 1 0) (trace step (init [] 1 0) overtakenActions)
      ((exec step (init [] 1 0) overtakenActions).get (by decide)) :=
    isRun_trace _ _ _ (by simp)
  have hlist := h _ _ _ _ _ hrun (fun i call hcall horigin =>
    returned_of_hasReturned (Table.of_any_not (by decide) hcall) horigin)
  revert hlist
  decide

end IpWhitelistState

end PetaCore
