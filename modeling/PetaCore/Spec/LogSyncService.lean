import PetaCore.Core.LogSyncService
import PetaCore.ForStd.Run

/-!
# Log sync skips nothing

The cursor `lastSyncedLogId` moves to the last row of a batch that the webhook has acknowledged. No
row below it has been skipped as long as a row becomes visible above the cursor and above the batch
that is being sent. A shutdown does not send anything.

Key results:
- `mem_findLogsFromId`: a batch has every visible row up to its last one
- `Ok.step`: each step keeps the rows below the cursor acknowledged
- `sync_skips_nothing`: in every run in which rows become visible in order
- `sync_skips_row`: a row that becomes visible late is skipped
-/

namespace PetaCore

open Run

namespace LogSyncState

variable {s : LogSyncState} {cursor : Nat}

/-! ## Batches -/

/-- The rows of the batch that is being sent. -/
def pendingLogs (s : LogSyncState) : List Nat :=
  match s.sync with
  | some (.sending logs _) | some (.waiting logs _) | some (.updating logs) => logs
  | some (.reading _) | none => []

/-- In a sorted list, what is at most the last of the first `n` is among these. -/
theorem mem_take_of_le {l : List Nat} (hl : l.Pairwise (· ≤ ·)) {n x y : Nat} (hx : x ∈ l)
    (hy : (l.take n).getLast? = some y) (hle : x ≤ y) : x ∈ l.take n := by
  have hmem : x ∈ l.take n ++ l.drop n := by rwa [List.take_append_drop]
  rcases List.mem_append.mp hmem with htake | hdrop
  · exact htake
  · have hyl : y ∈ l.take n := List.mem_of_getLast? hy
    rw [← List.take_append_drop n l, List.pairwise_append] at hl
    have hge := hl.2.2 y hyl x hdrop
    have heq : x = y := by omega
    rw [heq]
    exact hyl

theorem mem_findLogsFromId {startId limit id last : Nat} (hid : id ∈ s.rows) (hstart : startId ≤ id)
    (hlast : (s.findLogsFromId startId limit).getLast? = some last) (hle : id ≤ last) :
    id ∈ s.findLogsFromId startId limit := by
  apply mem_take_of_le (List.pairwise_insertionSort _ _) _ hlast hle
  rw [List.mem_insertionSort, List.mem_filter]
  exact ⟨hid, by simpa using hstart⟩

theorem le_of_mem_findLogsFromId {startId limit id : Nat} (h : id ∈ s.findLogsFromId startId limit) :
    startId ≤ id := by
  have hmem := List.mem_of_mem_take h
  rw [List.mem_insertionSort, List.mem_filter] at hmem
  simpa using hmem.2

/-! ## The invariant -/

/-- What holds when the cursor has started at `cursor`. -/
structure Ok (cursor : Nat) (s : LogSyncState) : Prop where
  started : cursor ≤ s.lastSyncedLogId
  acknowledged : ∀ id ∈ s.rows, cursor < id → id ≤ s.lastSyncedLogId → id ∈ s.acknowledged
  reading : ∀ startId, s.sync = some (.reading startId) → startId = s.lastSyncedLogId + 1
  pending : ∀ id ∈ s.rows, s.lastSyncedLogId < id → ∀ last ∈ s.pendingLogs.getLast?,
    id ≤ last → id ∈ s.pendingLogs
  above : ∀ id ∈ s.pendingLogs, s.lastSyncedLogId < id
  updating : ∀ logs, s.sync = some (.updating logs) → ∀ id ∈ logs, id ∈ s.acknowledged

theorem ok_init (proxyId cursor : Nat) (webhookUrl : Option String) (rows : List Nat)
    (nextId : Nat) : Ok cursor (init proxyId cursor webhookUrl rows nextId) := by
  constructor
  case started => exact Nat.le_refl cursor
  case acknowledged =>
    intro id _ hlt hle
    have hle' : id ≤ cursor := hle
    omega
  all_goals simp [init, pendingLogs]

/-- Nothing of the invariant has changed but the stage, which has no batch. -/
theorem Ok.idle {s s' : LogSyncState} (h : Ok cursor s)
    (hsync : s'.sync = none ∨ s'.sync = some (.reading (s'.lastSyncedLogId + 1)))
    (hlast : s'.lastSyncedLogId = s.lastSyncedLogId) (hrows : s'.rows = s.rows)
    (hack : s'.acknowledged = s.acknowledged) : Ok cursor s' := by
  have hpending : s'.pendingLogs = [] := by
    rcases hsync with hsync | hsync
    · simp [pendingLogs, hsync]
    · simp [pendingLogs, hsync]
  constructor
  case started => rw [hlast]; exact h.started
  case acknowledged => rw [hlast, hrows, hack]; exact h.acknowledged
  case reading =>
    intro startId hreading
    rcases hsync with hsync | hsync
    · simp [hsync] at hreading
    · rw [hsync] at hreading
      cases hreading
      rfl
  case pending => simp [hpending]
  case above => simp [hpending]
  case updating =>
    intro logs hupdating
    rcases hsync with hsync | hsync
    · simp [hsync] at hupdating
    · simp [hsync] at hupdating

/-- Nothing of the invariant has changed but the stage, which has the same batch. -/
theorem Ok.same {s s' : LogSyncState} (h : Ok cursor s) (hpending : s'.pendingLogs = s.pendingLogs)
    (hreading : ∀ startId, s'.sync = some (.reading startId) → s.sync = some (.reading startId))
    (hupdating : ∀ logs, s'.sync = some (.updating logs) → s.sync = some (.updating logs))
    (hlast : s'.lastSyncedLogId = s.lastSyncedLogId) (hrows : s'.rows = s.rows)
    (hack : s'.acknowledged = s.acknowledged) : Ok cursor s' := by
  constructor
  case started => rw [hlast]; exact h.started
  case acknowledged => rw [hlast, hrows, hack]; exact h.acknowledged
  case reading =>
    intro startId hs
    rw [hlast]
    exact h.reading startId (hreading startId hs)
  case pending => rw [hpending, hlast, hrows]; exact h.pending
  case above => rw [hpending, hlast]; exact h.above
  case updating =>
    intro logs hs
    rw [hack]
    exact h.updating logs (hupdating logs hs)

theorem Ok.syncLogs (h : Ok cursor s) : Ok cursor s.syncLogs := by
  simp only [LogSyncState.syncLogs]
  split
  · exact h
  · split
    · exact h
    · split
      · exact h
      · exact h.idle (Or.inr rfl) rfl rfl rfl

/-- A batch has been read. -/
theorem Ok.found {cursor startId : Nat} (h : Ok cursor s)
    (hreading : s.sync = some (.reading startId)) (limit : Nat) :
    Ok cursor (s.found (s.findLogsFromId startId limit)) := by
  obtain rfl := h.reading startId hreading
  simp only [LogSyncState.found]
  split
  · exact h.idle (Or.inl rfl) rfl rfl rfl
  · split
    · constructor
      case started => exact h.started
      case acknowledged => exact h.acknowledged
      case reading => simp [send]
      case pending =>
        intro id hid hlt last hlast hle
        exact mem_findLogsFromId hid hlt hlast hle
      case above =>
        intro id hid
        exact le_of_mem_findLogsFromId hid
      case updating => simp [send]
    · exact h.idle (Or.inl rfl) rfl rfl rfl

theorem Ok.attemptFails (h : Ok cursor s) {logs : List Nat} (hlogs : s.pendingLogs = logs)
    (attempt : Nat) : Ok cursor (s.attemptFails logs attempt) := by
  by_cases hretry : attempt < retryCount
  · apply h.same
    · simp [LogSyncState.attemptFails, hretry, pendingLogs, ← hlogs]
    all_goals simp [LogSyncState.attemptFails, hretry]
  · exact h.idle (Or.inl (by simp [LogSyncState.attemptFails, hretry])) rfl rfl rfl

/-- The cursor moves. -/
theorem Ok.updated (h : Ok cursor s) {logs : List Nat} (hsync : s.sync = some (.updating logs)) :
    Ok cursor { s with
      storedLogId := logs.getLastD s.lastSyncedLogId
      lastSyncedLogId := logs.getLastD s.lastSyncedLogId
      sync := none } := by
  have hpending : s.pendingLogs = logs := by simp [pendingLogs, hsync]
  cases hlast : logs.getLast? with
  | none =>
    rw [List.getLast?_eq_none_iff] at hlast
    rw [hlast]
    exact h.idle (Or.inl rfl) rfl rfl rfl
  | some last =>
    have hmoves : logs.getLastD s.lastSyncedLogId = last := by
      rw [List.getLastD_eq_getLast?, hlast, Option.getD_some]
    have hlt : s.lastSyncedLogId < last :=
      h.above last (hpending ▸ List.mem_of_getLast? hlast)
    have hstarted := h.started
    rw [hmoves]
    constructor
    case started =>
      show cursor ≤ last
      omega
    case acknowledged =>
      intro id hid hcursor hle
      by_cases hold : id ≤ s.lastSyncedLogId
      · exact h.acknowledged id hid hcursor hold
      · have hmem := h.pending id hid (by omega) last (by rw [hpending]; exact hlast) hle
        exact h.updating logs hsync id (hpending ▸ hmem)
    all_goals simp [pendingLogs]

/-! ## Runs -/

/-- Rows that have not been synced. -/
def hasUnsynced (s : LogSyncState) : Bool := s.rows.any fun id => s.lastSyncedLogId < id

/-- The condition on a step. A row becomes visible above the cursor and above the batch that is
    being sent; a shutdown comes when nothing is left to send, there is no webhook, or a sync is in
    progress. -/
def inOrder (s : LogSyncState) : LogSyncAction → Bool
  | .commit id => s.lastSyncedLogId < id && s.pendingLogs.all fun other => other < id
  | .shutdown => !s.hasUnsynced || !s.configured || s.sync.isSome
  | _ => true

theorem Ok.step {s s' : LogSyncState} {a : LogSyncAction} (h : Ok cursor s)
    (hstep : s.step a = some s') (horder : s.inOrder a = true) : Ok cursor s' := by
  cases a with
  | insert =>
    cases hstep
    exact h.same rfl (fun _ hs => hs) (fun _ hs => hs) rfl rfl rfl
  | commit id =>
    simp only [LogSyncState.step] at hstep
    split at hstep
    · cases hstep
      simp only [inOrder, Bool.and_eq_true, decide_eq_true_eq, List.all_eq_true] at horder
      obtain ⟨hlt, hbatch⟩ := horder
      constructor
      case started => exact h.started
      case acknowledged =>
        intro id' hid' hcursor hle
        rcases List.mem_append.mp hid' with hold | hnew
        · exact h.acknowledged id' hold hcursor hle
        · obtain rfl := List.mem_singleton.mp hnew
          have hle' : id' ≤ s.lastSyncedLogId := hle
          omega
      case reading => exact h.reading
      case pending =>
        intro id' hid' hcursor last hlast hle
        rcases List.mem_append.mp hid' with hold | hnew
        · exact h.pending id' hold hcursor last hlast hle
        · obtain rfl := List.mem_singleton.mp hnew
          have hlt' := hbatch last (List.mem_of_getLast? hlast)
          omega
      case above => exact h.above
      case updating => exact h.updating
    · cases hstep
  | rollback id =>
    simp only [LogSyncState.step] at hstep
    split at hstep
    · cases hstep
      exact h.same rfl (fun _ hs => hs) (fun _ hs => hs) rfl rfl rfl
    · cases hstep
  | timer =>
    simp only [LogSyncState.step] at hstep
    split at hstep
    · cases hstep
      exact h.syncLogs
    · cases hstep
  | read =>
    simp only [LogSyncState.step] at hstep
    split at hstep
    · next startId hreading =>
      cases hstep
      exact h.found hreading syncBatchSize
    · cases hstep
  | readFails | updateFails =>
    simp only [LogSyncState.step] at hstep
    split at hstep
    · cases hstep
      exact h.idle (Or.inl rfl) rfl rfl rfl
    · cases hstep
  | answered ok =>
    simp only [LogSyncState.step] at hstep
    split at hstep
    · next logs attempt hsending =>
      have hlogs : s.pendingLogs = logs := by simp [pendingLogs, hsending]
      split at hstep
      · cases hstep
        constructor
        case started => exact h.started
        case acknowledged =>
          intro id hid hcursor hle
          exact List.mem_append_left logs (h.acknowledged id hid hcursor hle)
        case reading => simp
        case pending =>
          have hpending := h.pending
          rw [hlogs] at hpending
          exact hpending
        case above =>
          have habove := h.above
          rw [hlogs] at habove
          exact habove
        case updating =>
          rintro logs' ⟨⟩ id hid
          exact List.mem_append_right s.acknowledged hid
      · cases hstep
        exact h.attemptFails hlogs attempt
    · cases hstep
  | retry =>
    simp only [LogSyncState.step] at hstep
    split at hstep
    · next logs attempt hwaiting =>
      have hlogs : s.pendingLogs = logs := by simp [pendingLogs, hwaiting]
      split at hstep
      · cases hstep
        apply h.same
        · rw [hlogs]
          rfl
        all_goals simp [send]
      · cases hstep
        exact h.attemptFails hlogs (attempt + 1)
    · cases hstep
  | updated =>
    simp only [LogSyncState.step] at hstep
    split at hstep
    · next logs hupdating =>
      cases hstep
      exact h.updated hupdating
    · cases hstep
  | reloadWebhookUrl webhookUrl =>
    cases hstep
    have hparts : (s.reloadWebhookUrl webhookUrl).sync = s.sync ∧
        (s.reloadWebhookUrl webhookUrl).lastSyncedLogId = s.lastSyncedLogId ∧
        (s.reloadWebhookUrl webhookUrl).rows = s.rows ∧
        (s.reloadWebhookUrl webhookUrl).acknowledged = s.acknowledged := by
      simp only [LogSyncState.reloadWebhookUrl, startSyncTimer]
      split <;> [split; split] <;> simp
    obtain ⟨hsync, hlast, hrows, hack⟩ := hparts
    apply h.same _ _ _ hlast hrows hack
    all_goals simp [pendingLogs, hsync]
  | shutdown =>
    cases hstep
    have hdown : Ok cursor { s with isShuttingDown := true, syncTimer := false } :=
      h.same rfl (fun _ hs => hs) (fun _ hs => hs) rfl rfl rfl
    exact hdown.syncLogs

/-- A shutdown sends a batch if it has one to send, a webhook, and no sync is in progress. -/
def ShutdownSends (tr : Transition LogSyncState LogSyncAction) : Prop :=
  tr.act = .shutdown → tr.pre.hasUnsynced = true → tr.pre.configured = true →
    tr.pre.sync = none → tr.pre.attempts.length < tr.post.attempts.length

/-- Every row up to the cursor that is visible has been acknowledged, and every shutdown sends
    what it has to. -/
theorem sync_skips_nothing (proxyId cursor : Nat) (webhookUrl : Option String) (rows : List Nat)
    (nextId : Nat) (trs : List (Transition LogSyncState LogSyncAction)) (s : LogSyncState)
    (hrun : IsRun step (init proxyId cursor webhookUrl rows nextId) trs s)
    (horder : ∀ tr ∈ trs, tr.pre.inOrder tr.act = true) :
    (∀ id ∈ s.rows, cursor < id → id ≤ s.lastSyncedLogId → id ∈ s.acknowledged) ∧
    ∀ tr ∈ trs, ShutdownSends tr := by
  constructor
  · have hok : Ok cursor s :=
      IsRun.history_of (G := fun tr => tr.pre.inOrder tr.act = true) (P := fun _ s => Ok cursor s)
        (ok_init proxyId cursor webhookUrl rows nextId)
        (fun _ _ _ _ _ h hstep hguard => h.step hstep hguard) hrun horder
    exact hok.acknowledged
  · intro tr htr hshutdown hunsynced hconfigured hidle
    have hguard := horder tr htr
    simp [hshutdown, inOrder, hunsynced, hconfigured, hidle] at hguard

/-- Rows become visible in the order of their ids. -/
def orderedActions : List LogSyncAction :=
  [.insert, .insert, .commit 1, .timer, .read, .commit 2, .answered false, .retry, .answered true,
    .updated, .timer, .read, .answered true, .updated, .shutdown]

theorem sync_skips_nothing_orderedActions :
    ∃ s, exec step (init 1 0 (some "https://logs.example.com") [] 1) orderedActions = some s ∧
      ((∀ id ∈ s.rows, 0 < id → id ≤ s.lastSyncedLogId → id ∈ s.acknowledged) ∧
      ∀ tr ∈ trace step (init 1 0 (some "https://logs.example.com") [] 1) orderedActions,
        ShutdownSends tr) ∧ s.lastSyncedLogId = 2 := by
  refine ⟨(exec step (init 1 0 (some "https://logs.example.com") [] 1) orderedActions).get
    (by decide), by simp, ?_, by decide⟩
  apply sync_skips_nothing 1 0 (some "https://logs.example.com") [] 1
  · exact isRun_trace _ _ _ (by simp)
  · decide

/-- Row 2 becomes visible and is synced before row 1 becomes visible. -/
def lateActions : List LogSyncAction :=
  [.insert, .insert, .commit 2, .timer, .read, .answered true, .updated, .commit 1]

theorem sync_skips_row :
    ¬ ∀ (proxyId cursor : Nat) (webhookUrl : Option String) (rows : List Nat) (nextId : Nat)
      (trs : List (Transition LogSyncState LogSyncAction)) (s : LogSyncState),
      IsRun step (init proxyId cursor webhookUrl rows nextId) trs s →
      (∀ id ∈ s.rows, cursor < id → id ≤ s.lastSyncedLogId → id ∈ s.acknowledged) ∧
      ∀ tr ∈ trs, ShutdownSends tr := by
  intro hall
  have hrun : IsRun step (init 1 0 (some "https://peta.example.com") [] 1)
      (trace step (init 1 0 (some "https://peta.example.com") [] 1) lateActions)
      ((exec step (init 1 0 (some "https://peta.example.com") [] 1) lateActions).get
        (by decide)) := isRun_trace _ _ _ (by simp)
  have hskipped := (hall 1 0 _ _ _ _ _ hrun).1 1 (by decide) (by decide) (by decide)
  exact absurd hskipped (by decide)

end LogSyncState

end PetaCore
