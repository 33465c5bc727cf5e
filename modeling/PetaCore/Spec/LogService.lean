import PetaCore.Core.LogService
import PetaCore.ForStd.Run

/-!
# Log entries are stored once

An entry that has been queued is in one place: it has its row, or it is in the queue, or an insert
of it is on its way. This needs that a batch fails as a whole: when an insert of it fails, no other
one has succeeded or does so later, as all entries of the batch are queued again (`wholeBatches`).

Key results:
- `Ok.step`: each step keeps every entry in one place
- `entries_stored_once`: in every run whose batches fail as a whole
- `entry_stored_twice`: a batch that fails in part is written again
-/

namespace PetaCore

open Run

namespace LogState

variable {s : LogState}

/-! ## Places -/

def InRow (s : LogState) (n : Nat) : Prop := n ∈ s.rows.map Prod.fst

def InQueue (s : LogState) (n : Nat) : Prop := n ∈ s.logQueue.map (·.number)

/-- The insert counts: it writes an entry at once, or the flush that awaits it has not failed. -/
def Live (s : LogState) (insert : LogInsert) : Prop :=
  ∀ flush, insert.flush = some flush → ∃ batch, s.flushes.get? flush = some batch

def Waiting (s : LogState) (n i : Nat) : Prop :=
  ∃ insert, s.inserts.get? i = some insert ∧ insert.log.number = n ∧ s.Live insert

/-- Each entry is in one place. -/
structure Ok (s : LogState) : Prop where
  rows : (s.rows.map Prod.fst).Nodup
  queue : (s.logQueue.map (·.number)).Nodup
  once : ∀ n i j, s.Waiting n i → s.Waiting n j → i = j
  rowQueue : ∀ n, s.InRow n → ¬ s.InQueue n
  rowWaiting : ∀ n i, s.InRow n → ¬ s.Waiting n i
  queueWaiting : ∀ n i, s.InQueue n → ¬ s.Waiting n i
  placed : ∀ n, n < s.next ↔ s.InRow n ∨ s.InQueue n ∨ ∃ i, s.Waiting n i
  numbered : ∀ i insert flush, s.inserts.get? i = some insert → insert.flush = some flush →
    flush < s.flushes.next
  batch : ∀ flush batch, s.flushes.get? flush = some batch → ∀ log ∈ batch,
    s.InRow log.number ∨ ∃ i, s.inserts.get? i = some ⟨some flush, log⟩
  batchNodup : ∀ flush batch, s.flushes.get? flush = some batch → (batch.map (·.number)).Nodup
  ofBatch : ∀ i flush log batch, s.inserts.get? i = some ⟨some flush, log⟩ →
    s.flushes.get? flush = some batch → log ∈ batch

theorem ok_init : init.Ok := by
  constructor <;> simp [init, InRow, InQueue, Waiting]

/-! ## Flushes -/

/-- A flush: the queue becomes its batch, and each entry of it an insert. -/
theorem waiting_flush (h : s.Ok) (hqueue : s.logQueue ≠ []) (n i : Nat) :
    s.flush.Waiting n i ↔ s.Waiting n i ∨
      ∃ k log, i = s.inserts.next + k ∧ s.logQueue[k]? = some log ∧ log.number = n := by
  have hlive : ∀ j insert, s.inserts.get? j = some insert →
      (s.flush.Live insert ↔ s.Live insert) := by
    intro j insert hj
    simp only [Live, flush, if_neg hqueue, Table.get?_add_eq_some]
    constructor
    · intro hlive f hf
      obtain ⟨batch, ⟨rfl, _⟩ | hbatch⟩ := hlive f hf
      · have hlt := h.numbered j insert _ hj hf
        omega
      · exact ⟨batch, hbatch⟩
    · intro hlive f hf
      obtain ⟨batch, hbatch⟩ := hlive f hf
      exact ⟨batch, .inr hbatch⟩
  have hget : ∀ insert, s.flush.inserts.get? i = some insert ↔ s.inserts.get? i = some insert ∨
      ∃ k, i = s.inserts.next + k ∧
        (s.logQueue.map fun log => (⟨some s.flushes.next, log⟩ : LogInsert))[k]? = some insert := by
    intro insert
    simp only [flush, if_neg hqueue]
    exact Table.get?_addAll
  constructor
  · rintro ⟨insert, hi, hn, hl⟩
    rcases (hget insert).mp hi with hold | ⟨k, rfl, hk⟩
    · exact .inl ⟨insert, hold, hn, (hlive i insert hold).mp hl⟩
    · rw [List.getElem?_map, Option.map_eq_some_iff] at hk
      obtain ⟨log, hk, rfl⟩ := hk
      exact .inr ⟨k, log, rfl, hk, hn⟩
  · rintro (⟨insert, hi, hn, hl⟩ | ⟨k, log, rfl, hk, hn⟩)
    · exact ⟨insert, (hget insert).mpr (.inl hi), hn, (hlive i insert hi).mpr hl⟩
    · refine ⟨⟨some s.flushes.next, log⟩, (hget _).mpr (.inr ⟨k, rfl, ?_⟩), hn, ?_⟩
      · simp [hk]
      · rintro f ⟨⟩
        refine ⟨s.logQueue, ?_⟩
        simp [flush, hqueue, Table.get?_add]

/-- Two places of the queue with the same entry are the same. -/
theorem queue_inj (h : s.Ok) {k l : Nat} {log log' : QueuedLog} (hk : s.logQueue[k]? = some log)
    (hl : s.logQueue[l]? = some log') (hn : log.number = log'.number) : k = l := by
  have hk' : (s.logQueue.map (·.number))[k]? = some log.number := by simp [hk]
  have hl' : (s.logQueue.map (·.number))[l]? = some log.number := by simp [hl, hn]
  have hlt := (List.getElem?_eq_some_iff.mp hk').1
  exact (List.getElem?_inj hlt h.queue).mp (hk'.trans hl'.symm)

theorem inQueue_of_getElem? {k : Nat} {log : QueuedLog} (hk : s.logQueue[k]? = some log) :
    s.InQueue log.number :=
  List.mem_map_of_mem (List.mem_of_getElem? hk)

theorem Ok.flush (h : s.Ok) : s.flush.Ok := by
  by_cases hqueue : s.logQueue = []
  · rw [LogState.flush, if_pos hqueue]
    exact h
  have hwaiting := waiting_flush h hqueue
  have hempty : s.flush.logQueue = [] := by simp [LogState.flush, hqueue]
  have hrows : s.flush.rows = s.rows := by simp [LogState.flush, hqueue]
  have hnext : s.flush.next = s.next := by simp [LogState.flush, hqueue]
  have hflushes : s.flush.flushes = s.flushes.add s.logQueue := by simp [LogState.flush, hqueue]
  have hinserts : s.flush.inserts = s.inserts.addAll
      (s.logQueue.map fun log => ⟨some s.flushes.next, log⟩) := by simp [LogState.flush, hqueue]
  have hlt : ∀ {n i}, s.Waiting n i → i < s.inserts.next :=
    fun ⟨_, hi, _⟩ => Table.lt_next_of_get? hi
  constructor
  case rows =>
    rw [hrows]
    exact h.rows
  case queue => simp [hempty]
  case once =>
    intro n i j hi hj
    rcases (hwaiting n i).mp hi with hi | ⟨k, log, rfl, hk, hn⟩
    · rcases (hwaiting n j).mp hj with hj | ⟨l, log', rfl, hl, hn'⟩
      · exact h.once n i j hi hj
      · exact absurd hi (h.queueWaiting n i (hn' ▸ inQueue_of_getElem? hl))
    · rcases (hwaiting n j).mp hj with hj | ⟨l, log', rfl, hl, hn'⟩
      · exact absurd hj (h.queueWaiting n j (hn ▸ inQueue_of_getElem? hk))
      · rw [queue_inj h hk hl (hn.trans hn'.symm)]
  case rowQueue => simp [InQueue, hempty]
  case rowWaiting =>
    intro n i hrow hi
    rw [InRow, hrows] at hrow
    rcases (hwaiting n i).mp hi with hi | ⟨k, log, _, hk, hn⟩
    · exact h.rowWaiting n i hrow hi
    · exact h.rowQueue n hrow (hn ▸ inQueue_of_getElem? hk)
  case queueWaiting => simp [InQueue, hempty]
  case placed =>
    intro n
    rw [hnext, h.placed n, InRow, InRow, hrows]
    constructor
    · rintro (hrow | hq | ⟨i, hi⟩)
      · exact .inl hrow
      · obtain ⟨log, hlog, hn⟩ := List.mem_map.mp hq
        obtain ⟨k, hk⟩ := List.mem_iff_getElem?.mp hlog
        exact .inr (.inr ⟨_, (hwaiting n _).mpr (.inr ⟨k, log, rfl, hk, hn⟩)⟩)
      · exact .inr (.inr ⟨i, (hwaiting n i).mpr (.inl hi)⟩)
    · rintro (hrow | hq | ⟨i, hi⟩)
      · exact .inl hrow
      · simp [InQueue, hempty] at hq
      · rcases (hwaiting n i).mp hi with hi | ⟨k, log, _, hk, hn⟩
        · exact .inr (.inr ⟨i, hi⟩)
        · exact .inr (.inl (hn ▸ inQueue_of_getElem? hk))
  case numbered =>
    intro i insert f hi hf
    rw [hinserts] at hi
    rw [hflushes, Table.next_add]
    rcases Table.get?_addAll.mp hi with hi | ⟨k, _, hk⟩
    · have := h.numbered i insert f hi hf
      omega
    · rw [List.getElem?_map, Option.map_eq_some_iff] at hk
      obtain ⟨log, _, rfl⟩ := hk
      cases hf
      omega
  case batch =>
    intro f batch hf log hlog
    rw [hflushes, Table.get?_add_eq_some] at hf
    rw [InRow, hrows, hinserts]
    rcases hf with ⟨rfl, rfl⟩ | hf
    · right
      obtain ⟨k, hk⟩ := List.mem_iff_getElem?.mp hlog
      exact ⟨_, Table.get?_addAll.mpr (.inr ⟨k, rfl, by simp [hk]⟩)⟩
    · rcases h.batch f batch hf log hlog with hrow | ⟨i, hi⟩
      · exact .inl hrow
      · exact .inr ⟨i, Table.get?_addAll.mpr (.inl hi)⟩
  case batchNodup =>
    intro f batch hf
    rw [hflushes, Table.get?_add_eq_some] at hf
    rcases hf with ⟨_, rfl⟩ | hf
    · exact h.queue
    · exact h.batchNodup f batch hf
  case ofBatch =>
    intro i f log batch hi hf
    rw [hinserts] at hi
    rw [hflushes, Table.get?_add_eq_some] at hf
    rcases Table.get?_addAll.mp hi with hi | ⟨k, _, hk⟩
    · rcases hf with ⟨rfl, _⟩ | hf
      · have := h.numbered i _ _ hi rfl
        omega
      · exact h.ofBatch i f log batch hi hf
    · rw [List.getElem?_map, Option.map_eq_some_iff] at hk
      obtain ⟨log', hk, heq⟩ := hk
      obtain ⟨hfl, rfl⟩ := LogInsert.mk.inj heq
      cases hfl
      rcases hf with ⟨_, rfl⟩ | hf
      · exact List.mem_of_getElem? hk
      · have := Table.lt_next_of_get? hf
        omega

/-! ## Enqueueing -/

/-- An entry with a new number is nowhere yet. -/
theorem Ok.nowhere (h : s.Ok) :
    ¬ s.InRow s.next ∧ ¬ s.InQueue s.next ∧ ∀ i, ¬ s.Waiting s.next i := by
  have hnot := mt (h.placed s.next).mpr (Nat.lt_irrefl s.next)
  simp only [not_or, not_exists] at hnot
  exact hnot

theorem Ok.pushed (h : s.Ok) (entry : LogEntry) :
    Ok { s with next := s.next + 1, logQueue := s.logQueue ++ [⟨s.next, entry⟩] } := by
  obtain ⟨hrow, hqueue, hwaiting⟩ := h.nowhere
  have hin : ∀ n, InQueue
      { s with next := s.next + 1, logQueue := s.logQueue ++ [⟨s.next, entry⟩] } n ↔
      s.InQueue n ∨ n = s.next := by
    intro n
    simp [InQueue]
  constructor
  case rows => exact h.rows
  case queue =>
    simp only [List.map_append, List.map_cons, List.map_nil]
    refine List.nodup_append.mpr ⟨h.queue, by simp, ?_⟩
    intro n hn m hm
    simp only [List.mem_singleton] at hm
    rintro rfl
    exact hqueue (hm ▸ hn)
  case once => exact h.once
  case rowQueue =>
    intro n hr hq
    rcases (hin n).mp hq with hq | rfl
    · exact h.rowQueue n hr hq
    · exact hrow hr
  case rowWaiting => exact h.rowWaiting
  case queueWaiting =>
    intro n i hq hi
    rcases (hin n).mp hq with hq | rfl
    · exact h.queueWaiting n i hq hi
    · exact hwaiting i hi
  case placed =>
    intro n
    rw [hin]
    have hplaced := h.placed n
    constructor
    · intro hlt
      have hlt' : n < s.next + 1 := hlt
      by_cases heq : n = s.next
      · exact .inr (.inl (.inr heq))
      · rcases hplaced.mp (by omega) with hr | hq | hw
        · exact .inl hr
        · exact .inr (.inl (.inl hq))
        · exact .inr (.inr hw)
    · show _ → n < s.next + 1
      rintro (hr | (hq | rfl) | hw)
      · have := hplaced.mpr (.inl hr)
        omega
      · have := hplaced.mpr (.inr (.inl hq))
        omega
      · omega
      · have := hplaced.mpr (.inr (.inr hw))
        omega
  case numbered => exact h.numbered
  case batch => exact h.batch
  case batchNodup => exact h.batchNodup
  case ofBatch => exact h.ofBatch

/-- An entry is written at once. -/
theorem Ok.direct (h : s.Ok) (entry : LogEntry) :
    Ok { s with next := s.next + 1, inserts := s.inserts.add ⟨none, ⟨s.next, entry⟩⟩ } := by
  obtain ⟨hrow, hqueue, hnone⟩ := h.nowhere
  have hwaiting : ∀ n i, Waiting
      { s with next := s.next + 1, inserts := s.inserts.add ⟨none, ⟨s.next, entry⟩⟩ } n i ↔
      s.Waiting n i ∨ (n = s.next ∧ i = s.inserts.next) := by
    intro n i
    constructor
    · rintro ⟨insert, hi, hn, hl⟩
      rcases Table.get?_add_eq_some.mp hi with ⟨rfl, rfl⟩ | hi
      · exact .inr ⟨hn.symm, rfl⟩
      · exact .inl ⟨insert, hi, hn, hl⟩
    · rintro (⟨insert, hi, hn, hl⟩ | ⟨rfl, rfl⟩)
      · exact ⟨insert, Table.get?_add_eq_some.mpr (.inr hi), hn, hl⟩
      · refine ⟨_, Table.get?_add_eq_some.mpr (.inl ⟨rfl, rfl⟩), rfl, ?_⟩
        rintro f ⟨⟩
  constructor
  case rows => exact h.rows
  case queue => exact h.queue
  case once =>
    intro n i j hi hj
    rcases (hwaiting n i).mp hi with hi | ⟨rfl, rfl⟩
    · rcases (hwaiting n j).mp hj with hj | ⟨rfl, rfl⟩
      · exact h.once n i j hi hj
      · exact absurd hi (hnone i)
    · rcases (hwaiting _ j).mp hj with hj | ⟨_, rfl⟩
      · exact absurd hj (hnone j)
      · rfl
  case rowQueue => exact h.rowQueue
  case rowWaiting =>
    intro n i hr hi
    rcases (hwaiting n i).mp hi with hi | ⟨rfl, _⟩
    · exact h.rowWaiting n i hr hi
    · exact hrow hr
  case queueWaiting =>
    intro n i hq hi
    rcases (hwaiting n i).mp hi with hi | ⟨rfl, _⟩
    · exact h.queueWaiting n i hq hi
    · exact hqueue hq
  case placed =>
    intro n
    have hplaced := h.placed n
    constructor
    · intro hlt
      have hlt' : n < s.next + 1 := hlt
      by_cases heq : n = s.next
      · exact .inr (.inr ⟨_, (hwaiting n _).mpr (.inr ⟨heq, rfl⟩)⟩)
      · rcases hplaced.mp (by omega) with hr | hq | ⟨i, hi⟩
        · exact .inl hr
        · exact .inr (.inl hq)
        · exact .inr (.inr ⟨i, (hwaiting n i).mpr (.inl hi)⟩)
    · intro hcases
      show n < s.next + 1
      rcases hcases with hr | hq | ⟨i, hi⟩
      · have := hplaced.mpr (.inl hr)
        omega
      · have := hplaced.mpr (.inr (.inl hq))
        omega
      · rcases (hwaiting n i).mp hi with hi | ⟨rfl, _⟩
        · have := hplaced.mpr (.inr (.inr ⟨i, hi⟩))
          omega
        · omega
  case numbered =>
    intro i insert f hi hf
    rcases Table.get?_add_eq_some.mp hi with ⟨_, rfl⟩ | hi
    · cases hf
    · exact h.numbered i insert f hi hf
  case batch =>
    intro f batch hf log hlog
    rcases h.batch f batch hf log hlog with hr | ⟨i, hi⟩
    · exact .inl hr
    · exact .inr ⟨i, Table.get?_add_eq_some.mpr (.inr hi)⟩
  case batchNodup => exact h.batchNodup
  case ofBatch =>
    intro i f log batch hi hf
    rcases Table.get?_add_eq_some.mp hi with ⟨_, heq⟩ | hi
    · cases heq
    · exact h.ofBatch i f log batch hi hf

theorem Ok.enqueueLog (h : s.Ok) (redact : LogEntry → LogEntry) (entry : LogEntry) :
    (s.enqueueLog redact entry).Ok := by
  simp only [LogState.enqueueLog]
  split
  · exact h.direct (redact entry)
  · have hpushed := h.pushed (redact entry)
    split
    · exact hpushed.flush
    · exact hpushed

/-! ## Inserts -/

/-- A flush that has returned is not awaited, one with an insert on its way has not. -/
theorem get?_insertDone {s s' : LogState} {flush : Option Nat} (hs' : s' = s.insertDone flush)
    (f : Nat) (batch : List QueuedLog) :
    (s'.flushes.get? f = some batch → s.flushes.get? f = some batch) ∧
    (s.flushes.get? f = some batch → (∃ i log, s.inserts.get? i = some ⟨some f, log⟩) →
      s'.flushes.get? f = some batch) := by
  subst hs'
  cases flush with
  | none => exact ⟨id, fun hf _ => hf⟩
  | some g =>
    simp only [insertDone]
    split
    · exact ⟨id, fun hf _ => hf⟩
    · next hnone =>
      refine ⟨fun hf => (Table.get?_of_get?_erase hf).2, ?_⟩
      rintro hf ⟨i, log, hi⟩
      rw [Table.get?_erase, if_neg, hf]
      rintro rfl
      exact hnone (Table.any_eq_true.mpr ⟨i, _, hi, by simp⟩)

/-- An insert that counts succeeds. -/
theorem Ok.insertSucceeds {s s' : LogState} (h : s.Ok) {i : Nat} {insert : LogInsert}
    {row : LogRow} (hi : s.inserts.get? i = some insert) (hlive : s.Live insert)
    (hs' : s' = insertDone { s with
      inserts := s.inserts.erase i, rows := s.rows ++ [(insert.log.number, row)] }
      insert.flush) : s'.Ok := by
  have hself : s.Waiting insert.log.number i := ⟨insert, hi, rfl, hlive⟩
  have hparts : s'.logQueue = s.logQueue ∧ s'.inserts = s.inserts.erase i ∧
      s'.rows = s.rows ++ [(insert.log.number, row)] ∧ s'.next = s.next ∧
      s'.flushes.next = s.flushes.next := by
    rw [hs']
    cases insert.flush with
    | none => exact ⟨rfl, rfl, rfl, rfl, rfl⟩
    | some f =>
      simp only [insertDone]
      split <;> simp
  obtain ⟨hqueue, hinserts, hrows, hnext, hflushNext⟩ := hparts
  have hget : ∀ {j other}, s'.inserts.get? j = some other →
      j ≠ i ∧ s.inserts.get? j = some other := by
    intro j other hj
    rw [hinserts] at hj
    exact Table.get?_of_get?_erase hj
  have hkeep : ∀ {j other}, j ≠ i → s.inserts.get? j = some other →
      s'.inserts.get? j = some other := by
    intro j other hne hj
    rw [hinserts, Table.get?_erase, if_neg hne, hj]
  have hflushes : ∀ {f batch}, s'.flushes.get? f = some batch → s.flushes.get? f = some batch := by
    intro f batch hf
    exact (get?_insertDone hs' f batch).1 hf
  have hin : ∀ n, s'.InRow n ↔ s.InRow n ∨ n = insert.log.number := by
    intro n
    simp [InRow, hrows]
  have hwaiting : ∀ n j, s'.Waiting n j ↔ s.Waiting n j ∧ j ≠ i := by
    intro n j
    constructor
    · rintro ⟨other, hj, hn, hl⟩
      obtain ⟨hne, hj'⟩ := hget hj
      refine ⟨⟨other, hj', hn, ?_⟩, hne⟩
      intro f hf
      obtain ⟨batch, hbatch⟩ := hl f hf
      exact ⟨batch, hflushes hbatch⟩
    · rintro ⟨⟨other, hj, hn, hl⟩, hne⟩
      refine ⟨other, hkeep hne hj, hn, ?_⟩
      intro f hf
      obtain ⟨batch, hbatch⟩ := hl f hf
      obtain ⟨flush, log⟩ := other
      obtain rfl : flush = some f := hf
      refine ⟨batch, (get?_insertDone hs' f batch).2 hbatch ⟨j, log, ?_⟩⟩
      simp only [Table.get?_erase, if_neg hne]
      exact hj
  constructor
  case rows =>
    rw [hrows, List.map_append]
    refine List.nodup_append.mpr ⟨h.rows, by simp, ?_⟩
    intro n hn m hm
    simp only [List.map_cons, List.map_nil, List.mem_singleton] at hm
    rintro rfl
    exact h.rowWaiting n i hn (hm ▸ hself)
  case queue =>
    rw [hqueue]
    exact h.queue
  case once =>
    intro n j l hj hl
    exact h.once n j l ((hwaiting n j).mp hj).1 ((hwaiting n l).mp hl).1
  case rowQueue =>
    intro n hr hq
    rw [InQueue, hqueue] at hq
    rcases (hin n).mp hr with hr | rfl
    · exact h.rowQueue n hr hq
    · exact h.queueWaiting _ i hq hself
  case rowWaiting =>
    intro n j hr hj
    obtain ⟨hj, hne⟩ := (hwaiting n j).mp hj
    rcases (hin n).mp hr with hr | rfl
    · exact h.rowWaiting n j hr hj
    · exact hne (h.once _ j i hj hself)
  case queueWaiting =>
    intro n j hq hj
    rw [InQueue, hqueue] at hq
    exact h.queueWaiting n j hq ((hwaiting n j).mp hj).1
  case placed =>
    intro n
    rw [hnext, h.placed n, hin, InQueue, InQueue, hqueue]
    constructor
    · rintro (hr | hq | ⟨j, hj⟩)
      · exact .inl (.inl hr)
      · exact .inr (.inl hq)
      · by_cases hne : j = i
        · subst hne
          obtain ⟨other, hother, hn, _⟩ := hj
          obtain rfl := Option.some.inj (hi.symm.trans hother)
          exact .inl (.inr hn.symm)
        · exact .inr (.inr ⟨j, (hwaiting n j).mpr ⟨hj, hne⟩⟩)
    · rintro ((hr | rfl) | hq | ⟨j, hj⟩)
      · exact .inl hr
      · exact .inr (.inr ⟨i, hself⟩)
      · exact .inr (.inl hq)
      · exact .inr (.inr ⟨j, ((hwaiting n j).mp hj).1⟩)
  case numbered =>
    intro j other f hj hf
    rw [hflushNext]
    exact h.numbered j other f (hget hj).2 hf
  case batch =>
    intro f batch hf log hlog
    rw [hin]
    rcases h.batch f batch (hflushes hf) log hlog with hr | ⟨j, hj⟩
    · exact .inl (.inl hr)
    · by_cases hne : j = i
      · subst hne
        obtain rfl := Option.some.inj (hi.symm.trans hj)
        exact .inl (.inr rfl)
      · exact .inr ⟨j, hkeep hne hj⟩
  case batchNodup => exact fun f batch hf => h.batchNodup f batch (hflushes hf)
  case ofBatch =>
    exact fun j f log batch hj hf => h.ofBatch j f log batch (hget hj).2 (hflushes hf)

/-- An insert that does not count any more fails. -/
theorem Ok.insertErased (h : s.Ok) {i : Nat} {insert : LogInsert}
    (hi : s.inserts.get? i = some insert) (hdead : ¬ s.Live insert) :
    Ok { s with inserts := s.inserts.erase i } := by
  have hkeep : ∀ {j other}, s.Live other → s.inserts.get? j = some other →
      (s.inserts.erase i).get? j = some other := by
    intro j other hl hj
    rw [Table.get?_erase, if_neg, hj]
    rintro rfl
    obtain rfl := Option.some.inj (hi.symm.trans hj)
    exact hdead hl
  have hwaiting : ∀ n j, Waiting { s with inserts := s.inserts.erase i } n j ↔ s.Waiting n j := by
    intro n j
    constructor
    · rintro ⟨other, hj, hn, hl⟩
      exact ⟨other, (Table.get?_of_get?_erase hj).2, hn, hl⟩
    · rintro ⟨other, hj, hn, hl⟩
      exact ⟨other, hkeep hl hj, hn, hl⟩
  constructor
  case rows => exact h.rows
  case queue => exact h.queue
  case once =>
    intro n j l hj hl
    exact h.once n j l ((hwaiting n j).mp hj) ((hwaiting n l).mp hl)
  case rowQueue => exact h.rowQueue
  case rowWaiting => exact fun n j hr hj => h.rowWaiting n j hr ((hwaiting n j).mp hj)
  case queueWaiting => exact fun n j hq hj => h.queueWaiting n j hq ((hwaiting n j).mp hj)
  case placed =>
    intro n
    simp only [hwaiting]
    exact h.placed n
  case numbered =>
    exact fun j other f hj hf => h.numbered j other f (Table.get?_of_get?_erase hj).2 hf
  case batch =>
    intro f batch hf log hlog
    rcases h.batch f batch hf log hlog with hr | ⟨j, hj⟩
    · exact .inl hr
    · refine .inr ⟨j, hkeep ?_ hj⟩
      rintro _ ⟨⟩
      exact ⟨batch, hf⟩
  case batchNodup => exact h.batchNodup
  case ofBatch =>
    exact fun j f log batch hj hf => h.ofBatch j f log batch (Table.get?_of_get?_erase hj).2 hf

/-- A flush fails before anything of its batch has been written. -/
theorem Ok.requeued (h : s.Ok) {i f : Nat} {batch : List QueuedLog}
    (hf : s.flushes.get? f = some batch) {insert : LogInsert} (hi : s.inserts.get? i = some insert)
    (hflush : insert.flush = some f) (hnone : ∀ log ∈ batch, ¬ s.InRow log.number) :
    Ok { s with
      inserts := s.inserts.erase i, logQueue := batch ++ s.logQueue
      flushes := s.flushes.erase f } := by
  -- an entry of the batch has an insert of the flush
  have hinsert : ∀ log ∈ batch, ∃ j, s.inserts.get? j = some ⟨some f, log⟩ := by
    intro log hlog
    rcases h.batch f batch hf log hlog with hr | hj
    · exact absurd hr (hnone log hlog)
    · exact hj
  have hbatch : ∀ n, n ∈ batch.map (·.number) → ∃ j, s.Waiting n j ∧
      ∀ other, s.inserts.get? j = some other → other.flush = some f := by
    intro n hn
    obtain ⟨log, hlog, rfl⟩ := List.mem_map.mp hn
    obtain ⟨j, hj⟩ := hinsert log hlog
    refine ⟨j, ⟨_, hj, rfl, ?_⟩, ?_⟩
    · rintro _ ⟨⟩
      exact ⟨batch, hf⟩
    · intro other hother
      obtain rfl := Option.some.inj (hj.symm.trans hother)
      rfl
  have hwaiting : ∀ n j, Waiting
      { s with
        inserts := s.inserts.erase i, logQueue := batch ++ s.logQueue
        flushes := s.flushes.erase f } n j ↔
      s.Waiting n j ∧ ∀ other, s.inserts.get? j = some other → other.flush ≠ some f := by
    intro n j
    constructor
    · rintro ⟨other, hj, hn, hl⟩
      obtain ⟨_, hj⟩ := Table.get?_of_get?_erase hj
      constructor
      · refine ⟨other, hj, hn, ?_⟩
        intro g hg
        obtain ⟨batch', hbatch'⟩ := hl g hg
        exact ⟨batch', (Table.get?_of_get?_erase hbatch').2⟩
      · intro other' hother' hg
        obtain rfl := Option.some.inj (hj.symm.trans hother')
        obtain ⟨batch', hbatch'⟩ := hl f hg
        exact (Table.get?_of_get?_erase hbatch').1 rfl
    · rintro ⟨⟨other, hj, hn, hl⟩, hne⟩
      have hother := hne other hj
      refine ⟨other, ?_, hn, ?_⟩
      · show (s.inserts.erase i).get? j = some other
        rw [Table.get?_erase, if_neg, hj]
        rintro rfl
        obtain rfl := Option.some.inj (hi.symm.trans hj)
        exact hother hflush
      · intro g hg
        obtain ⟨batch', hbatch'⟩ := hl g hg
        refine ⟨batch', ?_⟩
        show (s.flushes.erase f).get? g = some batch'
        rw [Table.get?_erase, if_neg, hbatch']
        rintro rfl
        exact hother hg
  have hin : ∀ n, InQueue
      { s with
        inserts := s.inserts.erase i, logQueue := batch ++ s.logQueue
        flushes := s.flushes.erase f } n ↔ n ∈ batch.map (·.number) ∨ s.InQueue n := by
    intro n
    simp only [InQueue, List.map_append, List.mem_append]
  constructor
  case rows => exact h.rows
  case queue =>
    simp only [List.map_append]
    refine List.nodup_append.mpr ⟨h.batchNodup f batch hf, h.queue, ?_⟩
    intro n hn m hm
    rintro rfl
    obtain ⟨j, hj, _⟩ := hbatch n hn
    exact h.queueWaiting n j hm hj
  case once =>
    intro n j l hj hl
    exact h.once n j l ((hwaiting n j).mp hj).1 ((hwaiting n l).mp hl).1
  case rowQueue =>
    intro n hr hq
    rcases (hin n).mp hq with hq | hq
    · obtain ⟨j, hj, _⟩ := hbatch n hq
      exact h.rowWaiting n j hr hj
    · exact h.rowQueue n hr hq
  case rowWaiting => exact fun n j hr hj => h.rowWaiting n j hr ((hwaiting n j).mp hj).1
  case queueWaiting =>
    intro n j hq hj
    obtain ⟨hj, hne⟩ := (hwaiting n j).mp hj
    rcases (hin n).mp hq with hq | hq
    · obtain ⟨l, hl, hof⟩ := hbatch n hq
      obtain rfl := h.once n l j hl hj
      obtain ⟨other, hother, _⟩ := hl
      exact hne other hother (hof other hother)
    · exact h.queueWaiting n j hq hj
  case placed =>
    intro n
    rw [hin]
    refine (h.placed n).trans ?_
    constructor
    · rintro (hr | hq | ⟨j, hj⟩)
      · exact .inl hr
      · exact .inr (.inl (.inr hq))
      · by_cases hof : ∃ log, s.inserts.get? j = some ⟨some f, log⟩
        · obtain ⟨log, hlog⟩ := hof
          obtain ⟨other, hother, rfl, _⟩ := hj
          obtain rfl := Option.some.inj (hlog.symm.trans hother)
          have hmem := h.ofBatch j f log batch hlog hf
          exact .inr (.inl (.inl (List.mem_map_of_mem hmem)))
        · refine .inr (.inr ⟨j, (hwaiting n j).mpr ⟨hj, ?_⟩⟩)
          rintro ⟨flush, log⟩ hother rfl
          exact hof ⟨log, hother⟩
    · rintro (hr | (hq | hq) | ⟨j, hj⟩)
      · exact .inl hr
      · obtain ⟨j, hj, _⟩ := hbatch n hq
        exact .inr (.inr ⟨j, hj⟩)
      · exact .inr (.inl hq)
      · exact .inr (.inr ⟨j, ((hwaiting n j).mp hj).1⟩)
  case numbered =>
    intro j other g hj hg
    rw [Table.next_erase]
    exact h.numbered j other g (Table.get?_of_get?_erase hj).2 hg
  case batch =>
    intro g batch' hg log hlog
    obtain ⟨hne, hg⟩ := Table.get?_of_get?_erase hg
    rcases h.batch g batch' hg log hlog with hr | ⟨j, hj⟩
    · exact .inl hr
    · refine .inr ⟨j, ?_⟩
      show (s.inserts.erase i).get? j = some ⟨some g, log⟩
      rw [Table.get?_erase, if_neg, hj]
      rintro rfl
      obtain rfl := Option.some.inj (hi.symm.trans hj)
      exact hne (Option.some.inj hflush)
  case batchNodup =>
    exact fun g batch' hg => h.batchNodup g batch' (Table.get?_of_get?_erase hg).2
  case ofBatch =>
    intro j g log batch' hj hg
    exact h.ofBatch j g log batch' (Table.get?_of_get?_erase hj).2 (Table.get?_of_get?_erase hg).2

/-! ## Runs -/

/-- The condition on a step. An insert succeeds while its flush has not failed; the first one of a
    flush that fails does so before anything of its batch has been written; an entry that is
    written at once is written. -/
def wholeBatches (s : LogState) : LogAction → Bool
  | .enqueueLog _ | .timer | .shutdown => true
  | .insertSucceeds i _ =>
    match s.inserts.get? i with
    | some ⟨some flush, _⟩ => (s.flushes.get? flush).isSome
    | _ => true
  | .insertFails i =>
    match s.inserts.get? i with
    | some ⟨some flush, _⟩ =>
      match s.flushes.get? flush with
      | some batch => batch.all fun log => !s.rows.any fun row => row.1 == log.number
      | none => true
    | some ⟨none, _⟩ => false
    | none => true

theorem Ok.step {s s' : LogState} (h : s.Ok) {redact : LogEntry → LogEntry} {a : LogAction}
    (hstep : s.step redact a = some s') (hwhole : s.wholeBatches a = true) : s'.Ok := by
  cases a with
  | enqueueLog entry =>
    cases hstep
    exact h.enqueueLog redact entry
  | timer =>
    simp only [LogState.step] at hstep
    split at hstep
    · cases hstep
      exact h.flush
    · cases hstep
  | shutdown =>
    cases hstep
    have hdown : Ok { s with isShuttingDown := true, flushTimer := false } :=
      ⟨h.rows, h.queue, h.once, h.rowQueue, h.rowWaiting, h.queueWaiting, h.placed, h.numbered,
        h.batch, h.batchNodup, h.ofBatch⟩
    exact hdown.flush
  | insertSucceeds i now =>
    simp only [LogState.step, Option.map_eq_some_iff] at hstep
    obtain ⟨insert, hi, rfl⟩ := hstep
    apply h.insertSucceeds hi _ rfl
    obtain ⟨flush, log⟩ := insert
    rintro f ⟨⟩
    simp only [wholeBatches, hi] at hwhole
    exact Option.isSome_iff_exists.mp hwhole
  | insertFails i =>
    simp only [LogState.step, Option.map_eq_some_iff] at hstep
    obtain ⟨⟨flush, log⟩, hi, rfl⟩ := hstep
    cases flush with
    | none => simp [wholeBatches, hi] at hwhole
    | some f =>
      simp only [wholeBatches, hi] at hwhole
      cases hf : s.flushes.get? f with
      | none =>
        simp only [requeue, hf]
        apply h.insertErased hi
        intro hlive
        obtain ⟨batch, hbatch⟩ := hlive f rfl
        simp [hf] at hbatch
      | some batch =>
        simp only [requeue, hf]
        simp only [hf] at hwhole
        refine h.requeued hf hi rfl ?_
        intro log' hlog' hrow
        obtain ⟨row, hrow, hn⟩ := List.mem_map.mp hrow
        have hnot := List.all_eq_true.mp hwhole log' hlog'
        simp only [Bool.not_eq_true', ← Bool.not_eq_true, List.any_eq_true] at hnot
        exact hnot ⟨row, hrow, by simp [hn]⟩

/-- Where an entry is: it has a row, it is in the queue, it belongs to the batch of a flush in
    progress, or it is being written at once. -/
def Kept (s : LogState) (n : Nat) : Prop :=
  n ∈ s.rows.map Prod.fst ∨ (∃ log ∈ s.logQueue, log.number = n) ∨
    (∃ flush batch, s.flushes.get? flush = some batch ∧ ∃ log ∈ batch, log.number = n) ∨
    ∃ i log, s.inserts.get? i = some ⟨none, log⟩ ∧ log.number = n

/-- At every moment no entry has more than one row and every entry is somewhere; so when the queue
    is empty and nothing is being written, every entry has exactly one row. -/
theorem entries_stored_once (redact : LogEntry → LogEntry)
    (trs : List (Transition LogState LogAction)) (s : LogState)
    (hrun : IsRun (step redact) init trs s)
    (hwhole : ∀ tr ∈ trs, tr.pre.wholeBatches tr.act = true) :
    (∀ n, (s.rows.map Prod.fst).count n ≤ 1) ∧ (∀ n < s.next, s.Kept n) ∧
    (s.logQueue = [] → (∀ i, s.flushes.get? i = none) →
      (∀ i log, s.inserts.get? i ≠ some ⟨none, log⟩) →
      ∀ n < s.next, (s.rows.map Prod.fst).count n = 1) := by
  have hok : s.Ok :=
    IsRun.history_of (G := fun tr => tr.pre.wholeBatches tr.act = true) (P := fun _ s => s.Ok)
      ok_init (fun _ _ _ _ _ h hstep hguard => h.step hstep hguard) hrun hwhole
  refine ⟨List.nodup_iff_count_le_one.mp hok.rows, ?_, ?_⟩
  · intro n hn
    rcases (hok.placed n).mp hn with hr | hq | ⟨i, ⟨flush, log⟩, hi, rfl, hlive⟩
    · exact .inl hr
    · exact .inr (.inl (List.mem_map.mp hq))
    · cases flush with
      | none => exact .inr (.inr (.inr ⟨i, log, hi, rfl⟩))
      | some f =>
        obtain ⟨batch, hf⟩ := hlive f rfl
        exact .inr (.inr (.inl ⟨f, batch, hf, log, hok.ofBatch i f log batch hi hf, rfl⟩))
  · intro hqueue hflushes hdirect n hn
    apply List.count_eq_one_of_mem hok.rows
    rcases (hok.placed n).mp hn with hr | hq | ⟨i, ⟨flush, log⟩, hi, _, hlive⟩
    · exact hr
    · simp [InQueue, hqueue] at hq
    · cases flush with
      | none => exact absurd hi (hdirect i log)
      | some f =>
        obtain ⟨batch, hf⟩ := hlive f rfl
        simp [hflushes] at hf

/-- An entry about nothing in particular. -/
def exampleEntry : LogEntry where
  action := 1001
  userId := some "u"
  serverId := none
  sessionId := none
  upstreamRequestId := none
  uniformRequestId := none
  parentUniformRequestId := none
  proxyRequestId := none
  ip := none
  userAgent := none
  tokenMask := none
  requestParams := none
  responseResult := none
  error := none
  duration := none
  statusCode := none

/-- A batch of two entries fails and is written again. -/
def retriedActions : List LogAction :=
  [.enqueueLog exampleEntry, .enqueueLog exampleEntry, .timer, .insertFails 1, .insertFails 0,
    .timer, .insertSucceeds 2 1000, .insertSucceeds 3 1000]

theorem entries_stored_once_retriedActions :
    ∃ s, exec (step id) init retriedActions = some s ∧
      ((∀ n, (s.rows.map Prod.fst).count n ≤ 1) ∧ (∀ n < s.next, s.Kept n) ∧
      (s.logQueue = [] → (∀ i, s.flushes.get? i = none) →
        (∀ i log, s.inserts.get? i ≠ some ⟨none, log⟩) →
        ∀ n < s.next, (s.rows.map Prod.fst).count n = 1)) := by
  refine ⟨(exec (step id) init retriedActions).get (by decide), by simp, ?_⟩
  apply entries_stored_once id (trace (step id) init retriedActions)
  · exact isRun_trace _ _ _ (by simp)
  · decide

/-- The first insert of a batch succeeds and the second one fails. -/
def partialActions : List LogAction :=
  [.enqueueLog exampleEntry, .enqueueLog exampleEntry, .timer, .insertSucceeds 0 1000,
    .insertFails 1, .timer, .insertSucceeds 2 6000, .insertSucceeds 3 6000]

theorem entry_stored_twice :
    ¬ ∀ (redact : LogEntry → LogEntry) (trs : List (Transition LogState LogAction)) (s : LogState),
      IsRun (step redact) init trs s → ∀ n, (s.rows.map Prod.fst).count n ≤ 1 := by
  intro hall
  have hrun : IsRun (step id) init (trace (step id) init partialActions)
      ((exec (step id) init partialActions).get (by decide)) := isRun_trace _ _ _ (by simp)
  exact absurd (hall id _ _ hrun 0) (by decide)

end LogState

end PetaCore
