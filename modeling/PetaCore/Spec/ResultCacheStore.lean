import PetaCore.Core.ResultCacheStore

/-!
# The admission counters of the three stores

A store in memory counts attempts in a window that is fixed by the first of them. Redis and the
database give the counter a new timeout with every attempt, and the database still counts on in
the instant at which that timeout ends. The counts are the same exactly as long as no call
falls where these readings differ.

## Key results

- `admission_counts_agree_iff`: the histories on which the three stores return the same counts
-/

namespace PetaCore

open RedisResultCacheStore (isVisible)

/-! ## The windows of a history -/

/-- The window of a key: when it ends if only its first attempt counts, and when it ends if
    the latest attempt counts. -/
structure AdmissionWindow where
  fixedEnd : Nat
  slidingEnd : Nat

namespace AdmissionWindow

/-- The window that an attempt opens. -/
def opened (now windowSeconds : Nat) : AdmissionWindow :=
  ⟨now + windowSeconds * 1000, now + windowSeconds * 1000⟩

/-- The window after an attempt, which is part of it until `fixedEnd`. -/
def attempt (w : AdmissionWindow) (now windowSeconds : Nat) : AdmissionWindow :=
  if now < w.fixedEnd then ⟨w.fixedEnd, now + windowSeconds * 1000⟩ else opened now windowSeconds

/-- A count that is read at `now` falls before both ends or after both. -/
def SameForCount (atTimeout : Bool) (w : AdmissionWindow) (now : Nat) : Prop :=
  (now < w.fixedEnd ↔ now < w.slidingEnd) ∧
    (now < w.fixedEnd ↔ isVisible atTimeout now w.slidingEnd = true)

/-- An attempt that is made at `now` falls before both ends or after both; in the instant of
    `slidingEnd` the database counts it to the window. -/
def SameForAttempt (atTimeout : Bool) (w : AdmissionWindow) (now : Nat) : Prop :=
  (now < w.fixedEnd ↔ now ≤ w.slidingEnd) ∧
    (now < w.fixedEnd ↔ isVisible atTimeout now w.slidingEnd = true)

end AdmissionWindow

/-- An attempt has a window of at least one second. -/
def AdmissionCall.WindowPositive : AdmissionCall → Prop
  | .recordAdmissionAttempt _ windowSeconds => 1 ≤ windowSeconds
  | _ => True

instance (call : AdmissionCall) : Decidable call.WindowPositive :=
  match call with
  | .recordAdmissionAttempt _ windowSeconds => inferInstanceAs (Decidable (1 ≤ windowSeconds))
  | .getAdmissionCount _ => isTrue trivial
  | .clearAdmission _ => isTrue trivial
  | .sweep _ => isTrue trivial

/-- No call of a history falls between the two ends of a window that is open for its key. -/
def WindowsAgree (atTimeout : Bool) : Dict AdmissionWindow → List TimedCall → Prop
  | _, [] => True
  | windows, ⟨now, .recordAdmissionAttempt key windowSeconds⟩ :: calls =>
    match windows.get? key with
    | none => WindowsAgree atTimeout (windows.set key (.opened now windowSeconds)) calls
    | some w =>
      w.SameForAttempt atTimeout now ∧
        WindowsAgree atTimeout (windows.set key (w.attempt now windowSeconds)) calls
  | windows, ⟨now, .getAdmissionCount key⟩ :: calls =>
    (∀ w, windows.get? key = some w → w.SameForCount atTimeout now) ∧
      WindowsAgree atTimeout windows calls
  | windows, ⟨_, .clearAdmission key⟩ :: calls =>
    WindowsAgree atTimeout (windows.erase key) calls
  | windows, ⟨_, .sweep _⟩ :: calls => WindowsAgree atTimeout windows calls

/-! ## One key -/

/-- What the three stores hold for a key whose window is known: the same count, with the end
    of the window as each of them sees it. A swept counter had expired. -/
def Tracks (clock : Nat) (window : Option AdmissionWindow) (m r d : Option AdmissionEntry) :
    Prop :=
  match window with
  | none => m = none ∧ r = none ∧ d = none
  | some w => ∃ count, 1 ≤ count ∧
      (m = some ⟨count, w.fixedEnd⟩ ∨ (m = none ∧ w.fixedEnd ≤ clock)) ∧
      r = some ⟨count, w.slidingEnd⟩ ∧
      (d = some ⟨count, w.slidingEnd⟩ ∨ (d = none ∧ w.slidingEnd < clock))

theorem Tracks.mono {clock clock' : Nat} (hle : clock ≤ clock') {window : Option AdmissionWindow}
    {m r d : Option AdmissionEntry} (h : Tracks clock window m r d) :
    Tracks clock' window m r d := by
  cases window with
  | none => exact h
  | some w =>
    obtain ⟨count, hpos, hm, hr, hd⟩ := h
    refine ⟨count, hpos, ?_, hr, ?_⟩
    · cases hm with
      | inl hm => exact .inl hm
      | inr hm => exact .inr ⟨hm.1, by omega⟩
    · cases hd with
      | inl hd => exact .inl hd
      | inr hd => exact .inr ⟨hd.1, by omega⟩

section

variable {clock now count : Nat} {key : String} {entries : Dict AdmissionEntry}
  {w : AdmissionWindow}

/-! ### Memory -/

theorem memory_record_none (windowSeconds : Nat) (h : entries.get? key = none) :
    MemoryResultCacheStore.recordAdmissionAttempt entries now key windowSeconds =
      (entries.set key ⟨1, now + windowSeconds * 1000⟩, 1) := by
  simp only [MemoryResultCacheStore.recordAdmissionAttempt, h, AdmissionEntry.start]

theorem memory_record_some (windowSeconds : Nat) (hnow : clock ≤ now)
    (h : entries.get? key = some ⟨count, w.fixedEnd⟩ ∨
      (entries.get? key = none ∧ w.fixedEnd ≤ clock)) :
    MemoryResultCacheStore.recordAdmissionAttempt entries now key windowSeconds =
      (entries.set key ⟨if now < w.fixedEnd then count + 1 else 1,
        (w.attempt now windowSeconds).fixedEnd⟩, if now < w.fixedEnd then count + 1 else 1) := by
  cases h with
  | inl h =>
    simp only [MemoryResultCacheStore.recordAdmissionAttempt, h, AdmissionEntry.start,
      AdmissionWindow.attempt]
    split
    all_goals rfl
  | inr h =>
    have hlt : ¬ now < w.fixedEnd := by omega
    rw [memory_record_none windowSeconds h.1, AdmissionWindow.attempt, if_neg hlt, if_neg hlt]
    rfl

theorem memory_count_some (hnow : clock ≤ now)
    (h : entries.get? key = some ⟨count, w.fixedEnd⟩ ∨
      (entries.get? key = none ∧ w.fixedEnd ≤ clock)) :
    MemoryResultCacheStore.getAdmissionCount entries now key =
      if now < w.fixedEnd then count else 0 := by
  cases h with
  | inl h =>
    simp only [MemoryResultCacheStore.getAdmissionCount, h]
    by_cases hlt : now < w.fixedEnd
    · rw [if_pos hlt, if_neg (by omega)]
    · rw [if_neg hlt, if_pos (by omega)]
  | inr h =>
    simp only [MemoryResultCacheStore.getAdmissionCount, h.1]
    rw [if_neg (by omega)]

/-! ### Redis -/

theorem redis_get_some (atTimeout : Bool) (h : entries.get? key = some ⟨count, w.slidingEnd⟩) :
    ((RedisResultCacheStore.get atTimeout entries now key).map (·.count)).getD 0 =
      if isVisible atTimeout now w.slidingEnd = true then count else 0 := by
  simp only [RedisResultCacheStore.get, h]
  by_cases hv : isVisible atTimeout now w.slidingEnd = true
  all_goals simp [Option.filter, hv]

theorem redis_get_none (atTimeout : Bool) (h : entries.get? key = none) :
    ((RedisResultCacheStore.get atTimeout entries now key).map (·.count)).getD 0 = 0 := by
  simp only [RedisResultCacheStore.get, h]
  rfl

theorem redis_expire (count : Nat) {windowSeconds : Nat} (hw : 1 ≤ windowSeconds) :
    RedisResultCacheStore.expire entries now key count windowSeconds =
      entries.set key ⟨count, now + windowSeconds * 1000⟩ := by
  rw [RedisResultCacheStore.expire, if_neg (by omega)]

/-! ### Database -/

theorem db_record_some (windowSeconds : Nat) (hnow : clock ≤ now)
    (h : entries.get? key = some ⟨count, w.slidingEnd⟩ ∨
      (entries.get? key = none ∧ w.slidingEnd < clock)) :
    ResultCacheAdmissionRepository.recordAttempt entries now key windowSeconds =
      (entries.set key ⟨if now ≤ w.slidingEnd then count + 1 else 1,
        now + windowSeconds * 1000⟩, if now ≤ w.slidingEnd then count + 1 else 1) := by
  cases h with
  | inl h =>
    simp only [ResultCacheAdmissionRepository.recordAttempt, h]
    by_cases hle : now ≤ w.slidingEnd
    · rw [if_pos hle, if_neg (by omega)]
    · rw [if_neg hle, if_pos (by omega)]
  | inr h =>
    simp only [ResultCacheAdmissionRepository.recordAttempt, h.1]
    rw [if_neg (by omega)]

theorem db_record_none (windowSeconds : Nat) (h : entries.get? key = none) :
    ResultCacheAdmissionRepository.recordAttempt entries now key windowSeconds =
      (entries.set key ⟨1, now + windowSeconds * 1000⟩, 1) := by
  simp only [ResultCacheAdmissionRepository.recordAttempt, h]

theorem db_count_some (hnow : clock ≤ now)
    (h : entries.get? key = some ⟨count, w.slidingEnd⟩ ∨
      (entries.get? key = none ∧ w.slidingEnd < clock)) :
    ResultCacheAdmissionRepository.getCount entries now key =
      if now < w.slidingEnd then count else 0 := by
  cases h with
  | inl h => simp only [ResultCacheAdmissionRepository.getCount, h, gt_iff_lt]
  | inr h =>
    simp only [ResultCacheAdmissionRepository.getCount, h.1]
    rw [if_neg (by omega)]

/-- Cleaning up removes rows that have expired, and nothing else. -/
theorem get?_cleanupExpired (batch : List String) (k : String) :
    (ResultCacheAdmissionRepository.cleanupExpired entries now batch).get? k = entries.get? k ∨
      ((ResultCacheAdmissionRepository.cleanupExpired entries now batch).get? k = none ∧
        ∃ row, entries.get? k = some row ∧ row.expiresAt < now) := by
  induction batch generalizing entries with
  | nil => exact .inl rfl
  | cons key batch ih =>
    simp only [ResultCacheAdmissionRepository.cleanupExpired]
    split
    · exact ih
    · rename_i row hrow
      split
      · rename_i hexpired
        have herase := @ih (entries.erase key)
        rw [Dict.get?_erase] at herase
        by_cases hk : k = key
        · subst hk
          simp only [if_true] at herase
          refine .inr ⟨?_, row, hrow, hexpired⟩
          cases herase with
          | inl h => exact h
          | inr h => exact h.1
        · simp only [if_neg hk] at herase
          exact herase
      · exact ih

end

/-! ## All keys -/

/-- The three stores hold the counters of these windows. -/
def StoresTrack (clock : Nat) (windows : Dict AdmissionWindow) (m r d : Dict AdmissionEntry) :
    Prop :=
  ∀ k, Tracks clock (windows.get? k) (m.get? k) (r.get? k) (d.get? k)

namespace StoresTrack

variable {clock clock' : Nat} {windows : Dict AdmissionWindow} {m r d : Dict AdmissionEntry}

theorem empty (clock : Nat) : StoresTrack clock .empty .empty .empty .empty := by
  intro k
  exact ⟨rfl, rfl, rfl⟩

theorem mono (h : StoresTrack clock windows m r d) (hle : clock ≤ clock') :
    StoresTrack clock' windows m r d := by
  intro k
  exact (h k).mono hle

theorem set (h : StoresTrack clock windows m r d) (key : String) (w : AdmissionWindow)
    {count : Nat} (hcount : 1 ≤ count) :
    StoresTrack clock (windows.set key w) (m.set key ⟨count, w.fixedEnd⟩)
      (r.set key ⟨count, w.slidingEnd⟩) (d.set key ⟨count, w.slidingEnd⟩) := by
  intro k
  by_cases hk : k = key
  · subst hk
    simp only [Dict.get?_set_self]
    exact ⟨count, hcount, .inl rfl, rfl, .inl rfl⟩
  · simp only [Dict.get?_set_ne _ _ hk]
    exact h k

theorem erase (h : StoresTrack clock windows m r d) (key : String) :
    StoresTrack clock (windows.erase key) (m.erase key) (r.erase key) (d.erase key) := by
  intro k
  simp only [Dict.get?_erase]
  split
  · exact ⟨rfl, rfl, rfl⟩
  · exact h k

/-- A sweep removes counters that no later call can see. -/
theorem sweep (h : StoresTrack clock windows m r d) (hle : clock ≤ clock')
    (batch : List String) :
    StoresTrack clock' windows (MemoryResultCacheStore.sweep m clock') r
      (ResultCacheAdmissionRepository.cleanupExpired d clock' batch) := by
  intro k
  have hk := (h k).mono hle
  have hdb := @get?_cleanupExpired clock' d batch k
  rw [MemoryResultCacheStore.sweep, Dict.get?_filter]
  cases hwindow : windows.get? k with
  | none =>
    rw [hwindow] at hk
    obtain ⟨hm, hr, hd⟩ := hk
    refine ⟨by rw [hm]; rfl, hr, ?_⟩
    cases hdb with
    | inl hdb => rw [hdb, hd]
    | inr hdb => exact hdb.1
  | some w =>
    rw [hwindow] at hk
    obtain ⟨count, hpos, hm, hr, hd⟩ := hk
    refine ⟨count, hpos, ?_, hr, ?_⟩
    · cases hm with
      | inl hm =>
        rw [hm]
        by_cases hlt : clock' < w.fixedEnd
        · left
          simp [Option.filter, hlt]
        · right
          refine ⟨?_, by omega⟩
          simp [Option.filter]
          omega
      | inr hm =>
        right
        rw [hm.1]
        exact ⟨rfl, hm.2⟩
    · cases hdb with
      | inl hdb =>
        rw [hdb]
        exact hd
      | inr hdb =>
        obtain ⟨hnone, row, hrow, hexpired⟩ := hdb
        right
        refine ⟨hnone, ?_⟩
        cases hd with
        | inl hd =>
          obtain rfl := Option.some.inj (hrow.symm.trans hd)
          exact hexpired
        | inr hd => exact hd.2

end StoresTrack

/-- Two stores that count on or start again return the same count only when they do the same. -/
theorem ite_count_eq_iff {p q : Prop} [Decidable p] [Decidable q] {a b : Nat} (h : a ≠ b) :
    (if p then a else b) = (if q then a else b) ↔ (p ↔ q) := by
  by_cases hp : p
  · by_cases hq : q
    · simp [hp, hq]
    · simp [hp, hq, h]
  · by_cases hq : q
    · simp [hp, hq, Ne.symm h]
    · simp [hp, hq]

/-! ## Histories -/

section

variable (atTimeout : Bool)

/-- The counts of the three stores from given states on. -/
def CountsAgreeFrom (m r d : Dict AdmissionEntry) (calls : List TimedCall) : Prop :=
  memoryStore.countsFrom m calls = (redisStore atTimeout).countsFrom r calls ∧
    memoryStore.countsFrom m calls = dbStore.countsFrom d calls

/-- The counts agree when they do in the first call and in the rest. -/
theorem countsAgreeFrom_cons (m r d : Dict AdmissionEntry) (c : TimedCall)
    (calls : List TimedCall) :
    CountsAgreeFrom atTimeout m r d (c :: calls) ↔
      ((memoryStore.apply m c).2 = ((redisStore atTimeout).apply r c).2 ∧
        (memoryStore.apply m c).2 = (dbStore.apply d c).2) ∧
      CountsAgreeFrom atTimeout (memoryStore.apply m c).1 ((redisStore atTimeout).apply r c).1
        (dbStore.apply d c).1 calls := by
  simp only [CountsAgreeFrom, ResultCacheStore.countsFrom, List.cons.injEq]
  constructor
  all_goals
    intro h
    exact ⟨⟨h.1.1, h.2.1⟩, h.1.2, h.2.2⟩

variable {clock now : Nat} {windows : Dict AdmissionWindow} {m r d : Dict AdmissionEntry}

/-- An attempt on a key without a window starts the count in every store. -/
theorem record_closed (h : StoresTrack clock windows m r d) (hnow : clock ≤ now) {key : String}
    {windowSeconds : Nat} (hw : 1 ≤ windowSeconds) (hwindow : windows.get? key = none) :
    ∃ m' r' d',
      memoryStore.apply m ⟨now, .recordAdmissionAttempt key windowSeconds⟩ = (m', some 1) ∧
      (redisStore atTimeout).apply r ⟨now, .recordAdmissionAttempt key windowSeconds⟩ =
        (r', some 1) ∧
      dbStore.apply d ⟨now, .recordAdmissionAttempt key windowSeconds⟩ = (d', some 1) ∧
      StoresTrack now (windows.set key (.opened now windowSeconds)) m' r' d' := by
  have hk := h key
  rw [hwindow] at hk
  obtain ⟨hm, hr, hd⟩ := hk
  refine ⟨_, _, _, ?_, ?_, ?_, (h.mono hnow).set key (.opened now windowSeconds)
    (Nat.le_refl 1)⟩
  · simp only [ResultCacheStore.apply, memoryStore, memory_record_none windowSeconds hm]
    rfl
  · simp only [ResultCacheStore.apply, redisStore, RedisResultCacheStore.recordAdmissionAttempt,
      redis_get_none atTimeout hr, redis_expire _ hw]
    rfl
  · simp only [ResultCacheStore.apply, dbStore, db_record_none windowSeconds hd]
    rfl

/-- An attempt on a key with a window returns the same counts exactly when it falls on the
    same side of both ends, and then the window goes on or starts again in all stores. -/
theorem record_open (h : StoresTrack clock windows m r d) (hnow : clock ≤ now) {key : String}
    {windowSeconds : Nat} (hw : 1 ≤ windowSeconds) {w : AdmissionWindow}
    (hwindow : windows.get? key = some w) :
    ∃ m' r' d' a b c,
      memoryStore.apply m ⟨now, .recordAdmissionAttempt key windowSeconds⟩ = (m', some a) ∧
      (redisStore atTimeout).apply r ⟨now, .recordAdmissionAttempt key windowSeconds⟩ =
        (r', some b) ∧
      dbStore.apply d ⟨now, .recordAdmissionAttempt key windowSeconds⟩ = (d', some c) ∧
      ((a = b ∧ a = c) ↔ w.SameForAttempt atTimeout now) ∧
      (w.SameForAttempt atTimeout now →
        StoresTrack now (windows.set key (w.attempt now windowSeconds)) m' r' d') := by
  have hk := h key
  rw [hwindow] at hk
  obtain ⟨count, hpos, hm, hr, hd⟩ := hk
  have hne : count + 1 ≠ 1 := by omega
  have hsucc : (if isVisible atTimeout now w.slidingEnd = true then count else 0) + 1 =
      if isVisible atTimeout now w.slidingEnd = true then count + 1 else 1 := by
    split
    all_goals rfl
  have hmem := memory_record_some windowSeconds hnow hm
  have hredis : RedisResultCacheStore.recordAdmissionAttempt atTimeout r now key windowSeconds =
      (r.set key ⟨if isVisible atTimeout now w.slidingEnd = true then count + 1 else 1,
        now + windowSeconds * 1000⟩,
        if isVisible atTimeout now w.slidingEnd = true then count + 1 else 1) := by
    simp only [RedisResultCacheStore.recordAdmissionAttempt, redis_get_some atTimeout hr, hsucc,
      redis_expire _ hw]
  have hdb := db_record_some windowSeconds hnow hd
  refine ⟨_, _, _, _, _, _, congrArg (fun x => (x.1, some x.2)) hmem,
    congrArg (fun x => (x.1, some x.2)) hredis, congrArg (fun x => (x.1, some x.2)) hdb, ?_, ?_⟩
  · rw [ite_count_eq_iff hne, ite_count_eq_iff hne]
    exact and_comm
  · intro hsame
    have hsliding : now + windowSeconds * 1000 = (w.attempt now windowSeconds).slidingEnd := by
      simp only [AdmissionWindow.attempt]
      split
      all_goals rfl
    simp only [← (ite_count_eq_iff hne).mpr hsame.2, ← (ite_count_eq_iff hne).mpr hsame.1,
      hsliding]
    refine (h.mono hnow).set key (w.attempt now windowSeconds) ?_
    split
    all_goals omega

/-- A count that is read is the same in all stores exactly when it falls on the same side of
    both ends. -/
theorem count_eq_iff (h : StoresTrack clock windows m r d) (hnow : clock ≤ now) (key : String) :
    (MemoryResultCacheStore.getAdmissionCount m now key =
        RedisResultCacheStore.getAdmissionCount atTimeout r now key ∧
      MemoryResultCacheStore.getAdmissionCount m now key =
        ResultCacheAdmissionRepository.getCount d now key) ↔
      ∀ w, windows.get? key = some w → w.SameForCount atTimeout now := by
  have hk := h key
  cases hwindow : windows.get? key with
  | none =>
    rw [hwindow] at hk
    obtain ⟨hm, hr, hd⟩ := hk
    simp [MemoryResultCacheStore.getAdmissionCount, RedisResultCacheStore.getAdmissionCount,
      ResultCacheAdmissionRepository.getCount, redis_get_none, hm, hr, hd]
  | some w =>
    rw [hwindow] at hk
    obtain ⟨count, hpos, hm, hr, hd⟩ := hk
    have hne : count ≠ 0 := by omega
    rw [memory_count_some hnow hm, RedisResultCacheStore.getAdmissionCount,
      redis_get_some atTimeout hr, db_count_some hnow hd, ite_count_eq_iff hne,
      ite_count_eq_iff hne]
    constructor
    · intro hsame w' hw'
      cases hw'
      exact ⟨hsame.2, hsame.1⟩
    · intro hsame
      exact ⟨(hsame w rfl).2, (hsame w rfl).1⟩

/-- From stores that hold the counters of the same windows, the counts agree exactly while no
    call falls between the two ends of a window. -/
theorem countsAgreeFrom_iff (calls : List TimedCall) (h : StoresTrack clock windows m r d)
    (hclock : ∀ c ∈ calls, clock ≤ c.now)
    (htimes : calls.Pairwise fun c c' => c.now ≤ c'.now)
    (hwindows : ∀ c ∈ calls, c.call.WindowPositive) :
    CountsAgreeFrom atTimeout m r d calls ↔ WindowsAgree atTimeout windows calls := by
  induction calls generalizing clock windows m r d with
  | nil => simp [CountsAgreeFrom, ResultCacheStore.countsFrom, WindowsAgree]
  | cons c calls ih =>
    obtain ⟨now, call⟩ := c
    obtain ⟨hlater, htimes'⟩ := List.pairwise_cons.mp htimes
    have hnow : clock ≤ now := hclock _ List.mem_cons_self
    have hwindows' : ∀ c ∈ calls, c.call.WindowPositive :=
      fun c hc => hwindows c (List.mem_cons_of_mem _ hc)
    have hpositive := hwindows _ List.mem_cons_self
    rw [countsAgreeFrom_cons]
    cases call with
    | recordAdmissionAttempt key windowSeconds =>
      cases hwindow : windows.get? key with
      | none =>
        obtain ⟨m', r', d', hm, hr, hd, htrack⟩ := record_closed atTimeout h hnow hpositive hwindow
        simp only [hm, hr, hd, WindowsAgree, hwindow, and_self, true_and]
        exact ih htrack hlater htimes' hwindows'
      | some w =>
        obtain ⟨m', r', d', a, b, c, hm, hr, hd, hsame, htrack⟩ :=
          record_open atTimeout h hnow hpositive hwindow
        simp only [hm, hr, hd, WindowsAgree, hwindow, Option.some.injEq, hsame]
        apply and_congr_right
        intro hw
        exact ih (htrack hw) hlater htimes' hwindows'
    | getAdmissionCount key =>
      simp only [ResultCacheStore.apply, memoryStore, redisStore, dbStore, Option.some.injEq,
        WindowsAgree, count_eq_iff atTimeout h hnow key]
      apply and_congr_right
      intro _
      exact ih (h.mono hnow) hlater htimes' hwindows'
    | clearAdmission key =>
      simp only [ResultCacheStore.apply, memoryStore, redisStore, dbStore, WindowsAgree, and_self,
        true_and]
      exact ih ((h.mono hnow).erase key) hlater htimes' hwindows'
    | sweep batch =>
      simp only [ResultCacheStore.apply, memoryStore, redisStore, dbStore, WindowsAgree, and_self,
        true_and]
      exact ih (h.sweep hnow batch) hlater htimes' hwindows'

end

/-- What a store promotes under an admission policy, from the counts that it returns. -/
def promotions (admissionPolicy : AdmissionPolicy) (counts : List (Option Nat)) :
    List (Option Bool) :=
  counts.map fun count => count.map fun n => shouldPromote n admissionPolicy

/-- The three stores return the same counts for a history, so that the same requests are
    promoted. -/
structure BackendsAgree (atTimeout : Bool) (calls : List TimedCall) : Prop where
  redis : memoryStore.counts calls = (redisStore atTimeout).counts calls
  db : memoryStore.counts calls = dbStore.counts calls
  promoted : ∀ policy,
    promotions policy (memoryStore.counts calls) =
        promotions policy ((redisStore atTimeout).counts calls) ∧
      promotions policy (memoryStore.counts calls) = promotions policy (dbStore.counts calls)

/-- The three stores agree on the histories in which no call falls between the end of a
    window that its first attempt fixed and the end that the latest attempt has given it. -/
theorem admission_counts_agree_iff (atTimeout : Bool) (calls : List TimedCall)
    (htimes : calls.Pairwise fun c c' => c.now ≤ c'.now)
    (hwindows : ∀ c ∈ calls, c.call.WindowPositive) :
    BackendsAgree atTimeout calls ↔ WindowsAgree atTimeout .empty calls := by
  rw [← countsAgreeFrom_iff atTimeout calls (StoresTrack.empty 0) (fun c _ => Nat.zero_le c.now)
    htimes hwindows]
  constructor
  · intro h
    exact ⟨h.redis, h.db⟩
  · intro h
    refine ⟨h.1, h.2, ?_⟩
    intro policy
    exact ⟨congrArg (promotions policy) h.1, congrArg (promotions policy) h.2⟩

/-- Two attempts and a read within one window, a sweep, and an attempt long after it. -/
def steadyCalls : List TimedCall :=
  [⟨0, .recordAdmissionAttempt "k" 60⟩, ⟨400, .recordAdmissionAttempt "k" 60⟩,
    ⟨500, .getAdmissionCount "k"⟩, ⟨90000, .sweep ["k"]⟩,
    ⟨95000, .recordAdmissionAttempt "k" 60⟩]

theorem windowsAgree_steadyCalls (atTimeout : Bool) :
    WindowsAgree atTimeout .empty steadyCalls := by
  cases atTimeout with
  | false | true =>
    simp [steadyCalls, WindowsAgree, AdmissionWindow.SameForAttempt, AdmissionWindow.SameForCount,
      AdmissionWindow.opened, AdmissionWindow.attempt, isVisible]

theorem admission_counts_agree_steadyCalls :
    memoryStore.counts steadyCalls = [some 1, some 2, some 2, none, some 1] ∧
      BackendsAgree true steadyCalls ∧ BackendsAgree false steadyCalls := by
  refine ⟨by decide +kernel, ?_, ?_⟩
  · exact (admission_counts_agree_iff true steadyCalls (by decide) (by decide)).mpr
      (windowsAgree_steadyCalls true)
  · exact (admission_counts_agree_iff false steadyCalls (by decide) (by decide)).mpr
      (windowsAgree_steadyCalls false)

/-- An attempt in the instant at which the window of the first one ends. -/
def boundaryCalls : List TimedCall :=
  [⟨0, .recordAdmissionAttempt "k" 1⟩, ⟨1000, .recordAdmissionAttempt "k" 1⟩]

/-- An attempt after the first window, within that of the second attempt. -/
def slidingCalls : List TimedCall :=
  [⟨0, .recordAdmissionAttempt "k" 1⟩, ⟨900, .recordAdmissionAttempt "k" 1⟩,
    ⟨1500, .recordAdmissionAttempt "k" 1⟩]

/-- The stores count differently, whichever way Redis reads the end of a timeout, and what is
    promoted on the second hit depends on the store. -/
theorem backends_disagree :
    (¬ ∀ calls : List TimedCall, (calls.Pairwise fun c c' => c.now ≤ c'.now) →
      (∀ c ∈ calls, c.call.WindowPositive) → BackendsAgree true calls) ∧
    (¬ ∀ calls : List TimedCall, (calls.Pairwise fun c c' => c.now ≤ c'.now) →
      (∀ c ∈ calls, c.call.WindowPositive) → BackendsAgree false calls) ∧
    memoryStore.counts slidingCalls = [some 1, some 2, some 1] ∧
    (redisStore true).counts slidingCalls = [some 1, some 2, some 3] ∧
    (redisStore false).counts slidingCalls = [some 1, some 2, some 3] ∧
    dbStore.counts slidingCalls = [some 1, some 2, some 3] ∧
    promotions .secondHit (memoryStore.counts boundaryCalls) = [some false, some false] ∧
    promotions .secondHit (dbStore.counts boundaryCalls) = [some false, some true] := by
  have hmemory : memoryStore.counts slidingCalls = [some 1, some 2, some 1] := by decide +kernel
  have hdb : dbStore.counts slidingCalls = [some 1, some 2, some 3] := by decide +kernel
  refine ⟨?_, ?_, hmemory, by decide +kernel, by decide +kernel, hdb, by decide +kernel,
    by decide +kernel⟩
  all_goals
    intro hall
    have hagree := (hall slidingCalls (by decide) (by decide)).db
    rw [hmemory, hdb] at hagree
    exact absurd hagree (by decide)

end PetaCore
