import PetaCore.Core.MemoryResultCacheStore
import PetaCore.ForStd.Run

/-!
# The cache store in memory

The store is read through its unexpired entries: what a `get` returns, whether a `set` has to evict
and what it evicts depend on them alone, as long as no two of them tie for the least expiry.

Key results:
- `room_of_not_full`, `room_of_full`: what a `set` leaves of the other unexpired entries
- `Bounded.step`: the bound on the number of entries is kept by every operation
- `mem_lastSet`: an entry is the one of the last `set` of its key after which no `delete` came
- `disappears`: how an unexpired entry can go without being overwritten
- `gets_sweep`: a run and the same run without its sweeps return the same
-/

namespace PetaCore

open Run

/-- A `set` is of a non-empty key. -/
def MemoryAction.Keyed : MemoryAction → Prop
  | .set entryKey _ _ _ => entryKey ≠ ""
  | _ => True

namespace MemoryCache

variable {s : MemoryCache} {k : String} {a : MemoryAction} {e : MemoryEntry}

variable {maxEntries : Nat}

/-! ## The unexpired entries -/

theorem get?_unexpired (s : MemoryCache) (k : String) :
    s.unexpired.get? k = (s.entries.get? k).filter fun entry => !entry.isExpired s.now :=
  Dict.get?_filter _ _ k

theorem get?_unexpired_eq_some :
    s.unexpired.get? k = some e ↔ s.entries.get? k = some e ∧ (s.now : Rat) < e.expiresAt := by
  rw [get?_unexpired, Option.filter_eq_some_iff]
  simp [MemoryEntry.isExpired]

theorem get_eq (s : MemoryCache) (k : String) : s.get k = (s.unexpired.get? k).map (·.value) := by
  rw [get?_unexpired, get]
  cases s.entries.get? k with
  | none => rfl
  | some e =>
    show (if e.isExpired s.now then none else some e.value) = _
    cases h : e.isExpired s.now with
    | true | false => simp [h]

/-- A key with the least expiry among the unexpired entries. -/
def Least (s : MemoryCache) (k : String) : Prop :=
  ∃ e, s.unexpired.get? k = some e ∧
    ∀ k' e', s.unexpired.get? k' = some e' → e.expiresAt ≤ e'.expiresAt

/-! ## The eviction -/

private theorem oldest_spec (l : List (String × MemoryEntry)) :
    (oldest l = none ∧ l = []) ∨
      ∃ x, oldest l = some x ∧ x ∈ l ∧ ∀ y ∈ l, x.2.expiresAt ≤ y.2.expiresAt := by
  -- the list is read from its end, so that the last comparison is with the least so far
  induction l using List.reverseRecOn with
  | nil => exact .inl ⟨rfl, rfl⟩
  | append_singleton l e ih =>
    right
    rw [oldest, List.foldl_append, ← oldest]
    obtain ⟨hnone, rfl⟩ | ⟨x, hx, hmem, hle⟩ := ih
    · exact ⟨e, rfl, by simp, by simp⟩
    · simp only [hx, List.foldl_cons, List.foldl_nil]
      by_cases hlt : e.2.expiresAt < x.2.expiresAt
      · refine ⟨e, if_pos hlt, by simp, ?_⟩
        intro y hy
        obtain hy | hy := List.mem_append.mp hy
        · exact hlt.le.trans (hle y hy)
        · rw [List.mem_singleton.mp hy]
      · refine ⟨x, if_neg hlt, by simp [hmem], ?_⟩
        intro y hy
        obtain hy | hy := List.mem_append.mp hy
        · exact hle y hy
        · rw [List.mem_singleton.mp hy]
          exact not_lt.mp hlt

/-- At most the allowed number of entries, none under the empty key. -/
structure Bounded (maxEntries : Nat) (s : MemoryCache) : Prop where
  size_le : s.entries.size ≤ maxEntries
  key_ne : ∀ k e, s.entries.get? k = some e → k ≠ ""

theorem evictOldest_of_not_full (h : s.unexpired.size < maxEntries) :
    s.evictOldest maxEntries = s.unexpired := by
  rw [evictOldest, if_neg (by omega)]

theorem evictOldest_of_full (hb : Bounded maxEntries s) (hpos : 1 ≤ maxEntries)
    (h : maxEntries ≤ s.unexpired.size) :
    ∃ k, Least s k ∧ s.evictOldest maxEntries = s.unexpired.erase k := by
  rw [evictOldest, if_pos h]
  obtain ⟨_, hnil⟩ | ⟨x, hx, hmem, hle⟩ := oldest_spec s.unexpired.entries
  · have hsize : s.unexpired.size = 0 := by simp [Dict.size, hnil]
    omega
  · have hget : s.unexpired.get? x.1 = some x.2 := (Dict.mem_entries _ _ _).mp hmem
    have hne : x.1 ≠ "" := hb.key_ne x.1 x.2 (get?_unexpired_eq_some.mp hget).1
    refine ⟨x.1, ⟨x.2, hget, ?_⟩, ?_⟩
    · intro k' e' hk'
      exact hle (k', e') ((Dict.mem_entries _ _ _).mpr hk')
    · simp [hx, hne]

/-- In a store full of unexpired entries no other entry is left. -/
theorem unexpired_eq_of_full (hb : Bounded maxEntries s) (h : maxEntries ≤ s.unexpired.size)
    (hk : s.entries.get? k = some e) : s.unexpired.get? k = some e := by
  by_contra hnot
  have hexp : (!e.isExpired s.now) = false := by
    rw [get?_unexpired, hk] at hnot
    cases he : e.isExpired s.now with
    | true => rfl
    | false => simp [he] at hnot
  have hlt : s.unexpired.size < s.entries.size := Dict.size_filter_lt hk hexp
  have := hb.size_le
  omega

/-- A `set` of a present key, or into a store not full of unexpired entries, drops expired ones
alone. -/
theorem room_of_not_full (h : maxEntries ≤ s.unexpired.size → ∃ e, s.unexpired.get? k = some e) :
    s.makeRoom maxEntries k = s.entries ∨
      (s.makeRoom maxEntries k = s.unexpired ∧ s.unexpired.size < maxEntries) := by
  rw [makeRoom]
  split
  · rename_i hfull
    right
    have hlt : s.unexpired.size < maxEntries := by
      by_contra hge
      obtain ⟨e, he⟩ := h (by omega)
      rw [(get?_unexpired_eq_some.mp he).1] at hfull
      cases hfull.2
    exact ⟨evictOldest_of_not_full hlt, hlt⟩
  · exact .inl rfl

/-- A `set` of a new key into a store full of unexpired entries drops one of them. -/
theorem room_of_full (hb : Bounded maxEntries s) (hpos : 1 ≤ maxEntries)
    (hfull : maxEntries ≤ s.unexpired.size) (hnew : s.unexpired.get? k = none) :
    s.entries.get? k = none ∧
      ∃ k', Least s k' ∧ s.makeRoom maxEntries k = s.unexpired.erase k' := by
  have hnone : s.entries.get? k = none := by
    cases hk : s.entries.get? k with
    | none => rfl
    | some e =>
      have := unexpired_eq_of_full hb hfull hk
      rw [hnew] at this
      cases this
  have hsize : maxEntries ≤ s.entries.size := hfull.trans (Dict.size_filter_le _ _)
  obtain ⟨k', hk', hevict⟩ := evictOldest_of_full hb hpos hfull
  exact ⟨hnone, k', hk', by rw [makeRoom, if_pos ⟨hsize, hnone⟩, hevict]⟩

/-- A `set` finds room for its entry, or evicts. -/
theorem room_cases (hb : Bounded maxEntries s) (hpos : 1 ≤ maxEntries) (k : String) :
    (s.makeRoom maxEntries k = s.entries ∨
        (s.makeRoom maxEntries k = s.unexpired ∧ s.unexpired.size < maxEntries)) ∨
      (maxEntries ≤ s.unexpired.size ∧ s.entries.get? k = none ∧
        ∃ k', Least s k' ∧ s.makeRoom maxEntries k = s.unexpired.erase k') := by
  by_cases hfull : maxEntries ≤ s.unexpired.size
  · cases hk : s.unexpired.get? k with
    | none => exact .inr ⟨hfull, room_of_full hb hpos hfull hk⟩
    | some e => exact .inl (room_of_not_full fun _ => ⟨e, hk⟩)
  · exact .inl (room_of_not_full fun h => absurd h hfull)

/-! ## The bound -/

variable {d : Dict MemoryEntry}

/-- Fewer entries, each as it was. -/
theorem Bounded.mono (hb : Bounded maxEntries s)
    (hsize : d.size ≤ s.entries.size) (hsub : ∀ k e, d.get? k = some e → s.entries.get? k = some e)
    (now : Nat) :
    Bounded maxEntries { s with entries := d, now } where
  size_le := hsize.trans hb.size_le
  key_ne k e hk := hb.key_ne k e (hsub k e hk)

theorem Bounded.unexpired (hb : Bounded maxEntries s) :
    Bounded maxEntries { s with entries := s.unexpired } :=
  hb.mono (Dict.size_filter_le _ _) (fun _ _ hk => (get?_unexpired_eq_some.mp hk).1) s.now

theorem get?_of_erase {k k' : String} (h : (d.erase k).get? k' = some e) :
    d.get? k' = some e := by
  rw [Dict.get?_erase] at h
  split at h
  · cases h
  · exact h

theorem Bounded.erase (hb : Bounded maxEntries s) (k : String) :
    Bounded maxEntries { s with entries := s.entries.erase k } :=
  hb.mono (Dict.size_erase_le _ _) (fun _ _ hk' => get?_of_erase hk') s.now

/-- The entries that a `set` leaves are entries it found. -/
theorem mem_of_mem_room (hb : Bounded maxEntries s) (hpos : 1 ≤ maxEntries) {k k' : String}
    (h : (s.makeRoom maxEntries k).get? k' = some e) : s.entries.get? k' = some e := by
  obtain (hroom | ⟨hroom, _⟩) | ⟨_, _, v, _, hroom⟩ := room_cases hb hpos k
  · exact hroom ▸ h
  · exact (get?_unexpired_eq_some.mp (hroom ▸ h)).1
  · exact (get?_unexpired_eq_some.mp (get?_of_erase (hroom ▸ h))).1

/-- After making room for a new key there is room. -/
theorem size_room_lt (hb : Bounded maxEntries s) (hpos : 1 ≤ maxEntries)
    (hnew : s.entries.get? k = none) : (s.makeRoom maxEntries k).size < maxEntries := by
  obtain (hroom | ⟨hroom, hlt⟩) | ⟨_, _, v, ⟨e, he, _⟩, hroom⟩ := room_cases hb hpos k
  · rw [hroom]
    by_contra hge
    have hroom' := hroom
    rw [makeRoom, if_pos ⟨by omega, hnew⟩] at hroom'
    by_cases hfull : maxEntries ≤ s.unexpired.size
    · obtain ⟨v, ⟨e, he, _⟩, hevict⟩ := evictOldest_of_full hb hpos hfull
      have hlt := Dict.size_erase_lt he
      rw [← hevict, hroom'] at hlt
      have := Dict.size_filter_le (fun entry => !entry.isExpired s.now) s.entries
      exact absurd (hlt.trans_le this) (lt_irrefl _)
    · rw [evictOldest_of_not_full (by omega)] at hroom'
      rw [← hroom'] at hge
      omega
  · rw [hroom]
    exact hlt
  · rw [hroom]
    have hlt := Dict.size_erase_lt he
    have hle := hb.unexpired.size_le
    exact hlt.trans_le hle

theorem Bounded.set (hb : Bounded maxEntries s) (hpos : 1 ≤ maxEntries) (hk : k ≠ "")
    (value : List UInt8) (ttlSeconds : Rat) (elapsed : Nat) :
    Bounded maxEntries (s.set maxEntries k value ttlSeconds elapsed) where
  size_le := by
    show ((s.makeRoom maxEntries k).set k _).size ≤ maxEntries
    cases hroom : (s.makeRoom maxEntries k).get? k with
    | none =>
      rw [Dict.size_set_of_none hroom]
      cases hold : s.entries.get? k with
      | none => exact size_room_lt hb hpos hold
      | some e =>
        have hsame : s.makeRoom maxEntries k = s.entries := by simp [makeRoom, hold]
        rw [hsame, hold] at hroom
        cases hroom
    | some e =>
      rw [Dict.size_set_of_some hroom]
      have hsame : s.makeRoom maxEntries k = s.entries := by
        simp [makeRoom, mem_of_mem_room hb hpos hroom]
      rw [hsame]
      exact hb.size_le
  key_ne k' e hk' := by
    change ((s.makeRoom maxEntries k).set k _).get? k' = some e at hk'
    rw [Dict.get?_set] at hk'
    split at hk'
    · rename_i heq
      rwa [heq]
    · exact hb.key_ne k' e (mem_of_mem_room hb hpos hk')

theorem Bounded.afterGet (hb : Bounded maxEntries s) (k : String) :
    Bounded maxEntries (s.afterGet k) := by
  rw [MemoryCache.afterGet]
  split
  · exact hb
  · split
    · exact hb.erase k
    · exact hb

/-- Every operation keeps the bound. -/
theorem Bounded.step {s s' : MemoryCache} (hb : Bounded maxEntries s) (hpos : 1 ≤ maxEntries)
    (hkeyed : a.Keyed) (hstep : s.step maxEntries a = some s') : Bounded maxEntries s' := by
  cases a with
  | tick _ | bumpNamespaceVersion _ => cases hstep; exact ⟨hb.size_le, hb.key_ne⟩
  | get k => cases hstep; exact hb.afterGet k
  | set k value ttlSeconds elapsed => cases hstep; exact hb.set hpos hkeyed value ttlSeconds elapsed
  | delete k => cases hstep; exact hb.erase k
  | sweep => cases hstep; exact hb.unexpired

/-! ## The last set -/

/-- What the last `set` of a key stored, when no `delete` of the key came after it. -/
def lastSet (k : String) (trs : List (Transition MemoryCache MemoryAction)) : Option MemoryEntry :=
  trs.foldl (fun last tr =>
    match tr.act with
    | .set k' value ttlSeconds elapsed =>
      if k' = k then some (tr.pre.newEntry value ttlSeconds elapsed) else last
    | .delete k' => if k' = k then none else last
    | _ => last) none

/-- An entry that an operation other than a `set` of its key leaves was there before it. -/
theorem step_entry {s s' : MemoryCache} (hb : Bounded maxEntries s) (hpos : 1 ≤ maxEntries)
    (hstep : s.step maxEntries a = some s') (he : s'.entries.get? k = some e) :
    (∃ value ttlSeconds elapsed, a = .set k value ttlSeconds elapsed ∧
        e = s.newEntry value ttlSeconds elapsed) ∨
      (s.entries.get? k = some e ∧ a ≠ .delete k ∧
        ∀ value ttlSeconds elapsed, a ≠ .set k value ttlSeconds elapsed) := by
  cases a with
  | tick _ | bumpNamespaceVersion _ => cases hstep; exact .inr ⟨he, by simp, by simp⟩
  | get k' =>
    cases hstep
    refine .inr ⟨?_, by simp, by simp⟩
    rw [MemoryCache.afterGet] at he
    split at he
    · exact he
    · split at he
      · exact get?_of_erase he
      · exact he
  | set k' value ttlSeconds elapsed =>
    cases hstep
    change ((s.makeRoom maxEntries k').set k' _).get? k = some e at he
    rw [Dict.get?_set] at he
    split at he
    · rename_i heq
      cases he
      exact .inl ⟨value, ttlSeconds, elapsed, by rw [heq], rfl⟩
    · rename_i hne
      refine .inr ⟨mem_of_mem_room hb hpos he, by simp, ?_⟩
      intro _ _ _ heq
      cases heq
      exact hne rfl
  | delete k' =>
    cases hstep
    change (s.entries.erase k').get? k = some e at he
    refine .inr ⟨get?_of_erase he, ?_, by simp⟩
    intro heq
    cases heq
    simp [Dict.get?_erase] at he
  | sweep =>
    cases hstep
    exact .inr ⟨(get?_unexpired_eq_some.mp he).1, by simp, by simp⟩

variable {trs : List (Transition MemoryCache MemoryAction)}

/-- In a run every entry is the one of the last `set` of its key. -/
theorem mem_lastSet (hpos : 1 ≤ maxEntries) {now : Nat}
    (hrun : IsRun (step maxEntries) (init now) trs s) (hkeyed : ∀ tr ∈ trs, tr.act.Keyed) :
    Bounded maxEntries s ∧ ∀ k e, s.entries.get? k = some e → lastSet k trs = some e := by
  have hinit : Bounded maxEntries (init now) := ⟨Nat.zero_le _, fun k e hk => by cases hk⟩
  refine IsRun.history_of (G := fun tr => tr.act.Keyed)
    (P := fun trs s => Bounded maxEntries s ∧
      ∀ k e, s.entries.get? k = some e → lastSet k trs = some e) ?_ ?_ hrun hkeyed
  · exact ⟨hinit, fun k e hk => by cases hk⟩
  · intro trs s a s' _ ih hstep hkey
    refine ⟨ih.1.step hpos hkey hstep, ?_⟩
    intro k e he
    rw [lastSet, List.foldl_append, ← lastSet]
    simp only [List.foldl_cons, List.foldl_nil]
    obtain ⟨value, ttlSeconds, elapsed, rfl, rfl⟩ | ⟨hold, hdel, hset⟩ :=
      step_entry ih.1 hpos hstep he
    · simp
    · have hlast := ih.2 k e hold
      split
      · rename_i k' value ttlSeconds elapsed
        rw [if_neg (fun heq => hset value ttlSeconds elapsed (by rw [heq])), hlast]
      · rename_i k'
        rw [if_neg (fun heq => hdel (by rw [heq])), hlast]
      · exact hlast

theorem get_eq_some {value : List UInt8} (h : s.get k = some value) :
    ∃ e, s.entries.get? k = some e ∧ e.value = value ∧ (s.now : Rat) < e.expiresAt := by
  rw [get_eq, Option.map_eq_some_iff] at h
  obtain ⟨e, he, rfl⟩ := h
  have hlive := get?_unexpired_eq_some.mp he
  exact ⟨e, hlive.1, rfl, hlive.2⟩

/-! ## Evicted entries -/

/-- An unexpired entry goes by a `delete`, or for a new key in a store full of unexpired entries.
Then it is one of those with the least expiry, and the only one that goes. -/
theorem disappears {s s' : MemoryCache} (hb : Bounded maxEntries s) (hpos : 1 ≤ maxEntries)
    (hstep : s.step maxEntries a = some s') (he : s.entries.get? k = some e)
    (hlive : (s.now : Rat) < e.expiresAt) (hgone : s'.entries.get? k = none) :
    a = .delete k ∨
      ∃ k' value ttlSeconds elapsed, a = .set k' value ttlSeconds elapsed ∧
        s.entries.get? k' = none ∧ s.entries.size = maxEntries ∧
        (∀ k₁ e₁, s.entries.get? k₁ = some e₁ →
          (s.now : Rat) < e₁.expiresAt ∧ e.expiresAt ≤ e₁.expiresAt) ∧
        ∀ k₁, k₁ ≠ k → k₁ ≠ k' → s'.entries.get? k₁ = s.entries.get? k₁ := by
  have hun : s.unexpired.get? k = some e := get?_unexpired_eq_some.mpr ⟨he, hlive⟩
  cases a with
  | tick _ | bumpNamespaceVersion _ =>
    cases hstep
    change s.entries.get? k = none at hgone
    rw [he] at hgone
    cases hgone
  | get k' =>
    cases hstep
    have hex : e.isExpired s.now = false := by simp [MemoryEntry.isExpired, hlive]
    rw [MemoryCache.afterGet] at hgone
    by_cases heq : k' = k
    · subst heq
      simp [he, hex] at hgone
    · have hne : k ≠ k' := fun h => heq h.symm
      split at hgone
      · simp [he] at hgone
      · split at hgone
        · simp [Dict.get?_erase, hne, he] at hgone
        · simp [he] at hgone
  | set k' value ttlSeconds elapsed =>
    cases hstep
    right
    change ((s.makeRoom maxEntries k').set k' _).get? k = none at hgone
    rw [Dict.get?_set] at hgone
    split at hgone
    · cases hgone
    · obtain (hroom | ⟨hroom, _⟩) | ⟨hfull, hnew, v, ⟨o, ho, hle⟩, hroom⟩ := room_cases hb hpos k'
      · rw [hroom, he] at hgone
        cases hgone
      · rw [hroom, hun] at hgone
        cases hgone
      · rw [hroom, Dict.get?_erase] at hgone
        have hkv : k = v := by
          by_contra hne
          simp [hne, hun] at hgone
        subst hkv
        have hall : ∀ k₁ e₁, s.entries.get? k₁ = some e₁ → s.unexpired.get? k₁ = some e₁ :=
          fun k₁ e₁ hk₁ => unexpired_eq_of_full hb hfull hk₁
        have hoe : o = e := by
          rw [hun] at ho
          cases ho
          rfl
        subst hoe
        have hsize : s.unexpired.size ≤ s.entries.size := Dict.size_filter_le _ _
        refine ⟨k', value, ttlSeconds, elapsed, rfl, hnew, ?_, ?_, ?_⟩
        · exact le_antisymm hb.size_le (hfull.trans hsize)
        · intro k₁ e₁ hk₁
          exact ⟨(get?_unexpired_eq_some.mp (hall k₁ e₁ hk₁)).2, hle k₁ e₁ (hall k₁ e₁ hk₁)⟩
        · intro k₁ hk₁ hk₁'
          change ((s.makeRoom maxEntries k').set k' _).get? k₁ = _
          rw [Dict.get?_set_ne _ _ hk₁', hroom, Dict.get?_erase, if_neg hk₁]
          cases hold : s.entries.get? k₁ with
          | none =>
            rw [get?_unexpired, hold]
            rfl
          | some e₁ => exact hall k₁ e₁ hold
  | delete k' =>
    cases hstep
    left
    change (s.entries.erase k').get? k = none at hgone
    rw [Dict.get?_erase] at hgone
    by_cases heq : k = k'
    · rw [heq]
    · rw [if_neg heq, he] at hgone
      cases hgone
  | sweep =>
    cases hstep
    change s.unexpired.get? k = none at hgone
    rw [hun] at hgone
    cases hgone

/-! ## Namespace versions -/

theorem getNamespaceVersion_step {s s' : MemoryCache} (hstep : s.step maxEntries a = some s')
    (k : String) : s.getNamespaceVersion k ≤ s'.getNamespaceVersion k := by
  cases a with
  | tick _ | set _ _ _ _ | delete _ | sweep => cases hstep; exact le_rfl
  | get k' =>
    cases hstep
    rw [MemoryCache.afterGet]
    split
    · exact le_rfl
    · split <;> exact le_rfl
  | bumpNamespaceVersion k' =>
    cases hstep
    simp only [getNamespaceVersion, bumpNamespaceVersion, Dict.get?_set]
    split
    · rename_i heq
      simp [heq]
    · exact le_rfl

theorem getNamespaceVersion_run {s s' : MemoryCache}
    (hrun : IsRun (step maxEntries) s trs s')
    (k : String) : s.getNamespaceVersion k ≤ s'.getNamespaceVersion k := by
  induction trs generalizing s with
  | nil => exact hrun ▸ le_rfl
  | cons tr trs ih =>
    obtain ⟨rfl, hstep, hrest⟩ := hrun
    exact (getNamespaceVersion_step hstep k).trans (ih hrest)

/-! ## Sweeps -/

/-- The same clock and the same unexpired entries, perhaps in another order. -/
structure Alike (s s' : MemoryCache) : Prop where
  now_eq : s.now = s'.now
  live : ∀ k, s.unexpired.get? k = s'.unexpired.get? k

/-- What a dictionary holds unexpired at one moment decides what it holds unexpired later. -/
theorem unexpired_later {d' : Dict MemoryEntry} {now now' : Nat} (hle : now ≤ now')
    (h : (d.get? k).filter (fun entry => !entry.isExpired now) =
      (d'.get? k).filter fun entry => !entry.isExpired now) :
    (d.get? k).filter (fun entry => !entry.isExpired now') =
      (d'.get? k).filter fun entry => !entry.isExpired now' := by
  have hcast : (now : Rat) ≤ now' := Rat.natCast_le_natCast.mpr hle
  have hboth : ∀ o : Option MemoryEntry, o.filter (fun entry => !entry.isExpired now') =
      (o.filter fun entry => !entry.isExpired now).filter fun entry => !entry.isExpired now' := by
    intro o
    rw [Option.filter_filter]
    congr 1
    funext entry
    by_cases hexp : entry.expiresAt ≤ (now : Rat)
    · simp [MemoryEntry.isExpired, hexp.trans hcast]
    · simp [MemoryEntry.isExpired, not_le.mp hexp]
  rw [hboth (d.get? k), hboth (d'.get? k), h]

theorem Alike.later {s s' : MemoryCache} {d' : Dict MemoryEntry} {now' : Nat} (hle : s.now ≤ now')
    (h : ∀ k, (d.get? k).filter (fun entry => !entry.isExpired s.now) =
      (d'.get? k).filter fun entry => !entry.isExpired s.now) :
    Alike { s with entries := d, now := now' } { s' with entries := d', now := now' } where
  now_eq := rfl
  live k := by
    rw [get?_unexpired, get?_unexpired]
    exact unexpired_later hle (h k)

/-- Dropping expired entries, here all of them, leaves the unexpired ones. -/
theorem filter_unexpired (s : MemoryCache) (k : String) :
    (s.unexpired.get? k).filter (fun entry => !entry.isExpired s.now) = s.unexpired.get? k := by
  rw [get?_unexpired, Option.filter_filter]
  simp

theorem unexpired_sweep (s : MemoryCache) (k : String) :
    { s with entries := s.unexpired : MemoryCache }.unexpired.get? k = s.unexpired.get? k := by
  rw [get?_unexpired]
  exact filter_unexpired s k

theorem afterGet_now (s : MemoryCache) (k : String) : (s.afterGet k).now = s.now := by
  rw [MemoryCache.afterGet]
  split
  · rfl
  · split <;> rfl

theorem unexpired_afterGet (s : MemoryCache) (k k' : String) :
    (s.afterGet k).unexpired.get? k' = s.unexpired.get? k' := by
  rw [MemoryCache.afterGet]
  split
  · rfl
  · rename_i e he
    split
    · rename_i hexp
      rw [get?_unexpired, get?_unexpired]
      show ((s.entries.erase k).get? k').filter (fun entry => !entry.isExpired s.now) = _
      rw [Dict.get?_erase]
      by_cases heq : k' = k
      · subst heq
        rw [he, if_pos rfl, Option.filter_some, hexp]
        rfl
      · rw [if_neg heq]
    · rfl

/-- No two of the unexpired entries tie for the least expiry when one has to go. -/
def Untied (maxEntries : Nat) (tr : Transition MemoryCache MemoryAction) : Prop :=
  ∀ k value ttlSeconds elapsed, tr.act = .set k value ttlSeconds elapsed →
    maxEntries ≤ tr.pre.unexpired.size → tr.pre.unexpired.get? k = none →
    ∀ k₁ k₂, Least tr.pre k₁ → Least tr.pre k₂ → k₁ = k₂

theorem Alike.least {s s' : MemoryCache} (h : Alike s s') (hk : Least s' k) : Least s k := by
  obtain ⟨e, he, hle⟩ := hk
  refine ⟨e, by rw [h.live, he], ?_⟩
  intro k' e' hk'
  rw [h.live] at hk'
  exact hle k' e' hk'

/-- Stores alike make room alike. -/
theorem Alike.room {s s' : MemoryCache} (h : Alike s s') (hb : Bounded maxEntries s)
    (hb' : Bounded maxEntries s') (hpos : 1 ≤ maxEntries)
    (huntied : maxEntries ≤ s.unexpired.size → s.unexpired.get? k = none →
      ∀ k₁ k₂, Least s k₁ → Least s k₂ → k₁ = k₂) (k' : String) :
    ((s.makeRoom maxEntries k).get? k').filter (fun entry => !entry.isExpired s.now) =
      ((s'.makeRoom maxEntries k).get? k').filter fun entry => !entry.isExpired s.now := by
  have hsize : s.unexpired.size = s'.unexpired.size := Dict.size_eq_of_get? h.live
  -- what is dropped without an eviction is expired
  have hkept : ∀ s : MemoryCache, (s.makeRoom maxEntries k = s.entries ∨
      (s.makeRoom maxEntries k = s.unexpired ∧ s.unexpired.size < maxEntries)) →
      ((s.makeRoom maxEntries k).get? k').filter (fun entry => !entry.isExpired s.now) =
        s.unexpired.get? k' := by
    intro s hroom
    obtain hroom | ⟨hroom, _⟩ := hroom
    · rw [hroom, get?_unexpired]
    · rw [hroom, filter_unexpired]
  by_cases hfull : maxEntries ≤ s.unexpired.size ∧ s.unexpired.get? k = none
  · obtain ⟨_, v, hv, hroom⟩ := room_of_full hb hpos hfull.1 hfull.2
    obtain ⟨_, v', hv', hroom'⟩ :=
      room_of_full hb' hpos (hsize ▸ hfull.1) ((h.live k).symm.trans hfull.2)
    have heq : v = v' := huntied hfull.1 hfull.2 v v' hv (h.least hv')
    subst heq
    rw [hroom, hroom', Dict.get?_erase, Dict.get?_erase, h.live]
  · have hpresent : maxEntries ≤ s.unexpired.size → ∃ e, s.unexpired.get? k = some e := by
      intro hle
      exact Option.ne_none_iff_exists'.mp fun hnone => hfull ⟨hle, hnone⟩
    have hpresent' : maxEntries ≤ s'.unexpired.size → ∃ e, s'.unexpired.get? k = some e := by
      rw [← hsize, ← h.live]
      exact hpresent
    rw [hkept s (room_of_not_full hpresent), h.now_eq, hkept s' (room_of_not_full hpresent'),
      h.live]

/-- Stores alike stay alike under the same operation. -/
theorem Alike.step {s s' t t' : MemoryCache} (h : Alike s s') (hb : Bounded maxEntries s)
    (hb' : Bounded maxEntries s') (hpos : 1 ≤ maxEntries) (huntied : Untied maxEntries ⟨s, a, t⟩)
    (hstep : s.step maxEntries a = some t) (hstep' : s'.step maxEntries a = some t') :
    Alike t t' := by
  have hnow := h.now_eq
  have hlive : ∀ k, (s.entries.get? k).filter (fun entry => !entry.isExpired s.now) =
      (s'.entries.get? k).filter fun entry => !entry.isExpired s.now := by
    intro k
    have := h.live k
    rwa [get?_unexpired, get?_unexpired, ← hnow] at this
  cases a with
  | tick time =>
    cases hstep
    cases hstep'
    rw [← hnow]
    exact Alike.later (Nat.le_add_right _ _) hlive
  | get k =>
    cases hstep
    cases hstep'
    refine ⟨by rw [afterGet_now, afterGet_now, hnow], ?_⟩
    intro k'
    rw [unexpired_afterGet, unexpired_afterGet, h.live]
  | set k value ttlSeconds elapsed =>
    cases hstep
    cases hstep'
    have hroom := h.room hb hb' hpos (k := k)
      (fun hfull hnew => huntied k value ttlSeconds elapsed rfl hfull hnew)
    have hentry : s.newEntry value ttlSeconds elapsed = s'.newEntry value ttlSeconds elapsed := by
      rw [newEntry, newEntry, hnow]
    rw [MemoryCache.set, MemoryCache.set, ← hentry, ← hnow]
    refine Alike.later (Nat.le_add_right _ _) ?_
    intro k'
    rw [Dict.get?_set, Dict.get?_set]
    split
    · rfl
    · exact hroom k'
  | delete k =>
    cases hstep
    cases hstep'
    rw [← hnow]
    refine Alike.later le_rfl ?_
    intro k'
    rw [Dict.get?_erase, Dict.get?_erase]
    split
    · rfl
    · exact hlive k'
  | bumpNamespaceVersion k =>
    cases hstep
    cases hstep'
    exact ⟨hnow, h.live⟩
  | sweep =>
    cases hstep
    cases hstep'
    refine ⟨hnow, ?_⟩
    intro k
    rw [unexpired_sweep, unexpired_sweep, h.live]

/-- What an operation returns, when it is a `get`. -/
def reply (s : MemoryCache) : MemoryAction → List (Option (List UInt8))
  | .get entryKey => [s.get entryKey]
  | _ => []

/-- What the `get`s among some operations return. -/
def gets (maxEntries : Nat) (s : MemoryCache) : List MemoryAction → List (Option (List UInt8))
  | [] => []
  | a :: as =>
    match s.step maxEntries a with
    | none => []
    | some s' => s.reply a ++ gets maxEntries s' as

theorem gets_cons {s s' : MemoryCache} (as : List MemoryAction)
    (hstep : s.step maxEntries a = some s') :
    gets maxEntries s (a :: as) = s.reply a ++ gets maxEntries s' as := by
  simp only [gets, hstep]

/-- Without ties, a run and the same run without its sweeps return the same. -/
theorem gets_sweep (hpos : 1 ≤ maxEntries) {s s' t : MemoryCache}
    (hrun : IsRun (step maxEntries) s trs t)
    (hkeyed : ∀ tr ∈ trs, tr.act.Keyed) (huntied : ∀ tr ∈ trs, Untied maxEntries tr)
    (h : Alike s s') (hb : Bounded maxEntries s) (hb' : Bounded maxEntries s') :
    gets maxEntries s (trs.map (·.act)) =
      gets maxEntries s' ((trs.map (·.act)).filter (· ≠ .sweep)) := by
  induction trs generalizing s s' with
  | nil => rfl
  | cons tr trs ih =>
    obtain ⟨rfl, hstep, hrest⟩ := hrun
    have hkey := hkeyed tr (List.mem_cons_self ..)
    have hun := huntied tr (List.mem_cons_self ..)
    have hpost := hb.step hpos hkey hstep
    have hih := fun {s'} => @ih _ s' hrest (fun x hx => hkeyed x (List.mem_cons_of_mem _ hx))
      (fun x hx => huntied x (List.mem_cons_of_mem _ hx))
    rw [List.map_cons, gets_cons _ hstep]
    by_cases hsweep : tr.act = .sweep
    · -- the other run stays where it is
      have hpost_eq : tr.post = { tr.pre with entries := tr.pre.unexpired } := by
        rw [hsweep] at hstep
        exact (Option.some.inj hstep).symm
      have halike : Alike tr.post s' := by
        refine ⟨by rw [hpost_eq, ← h.now_eq], ?_⟩
        intro k
        rw [hpost_eq, unexpired_sweep, h.live]
      rw [hsweep, List.filter_cons_of_neg (by simp), hih halike hpost hb']
      rfl
    · rw [List.filter_cons_of_pos (by simpa using hsweep)]
      obtain ⟨t', hstep'⟩ : ∃ t', s'.step maxEntries tr.act = some t' := by
        cases tr.act <;> exact ⟨_, rfl⟩
      have halike := h.step hb hb' hpos hun hstep hstep'
      rw [gets_cons _ hstep', hih halike hpost (hb'.step hpos hkey hstep')]
      have hreply : tr.pre.reply tr.act = s'.reply tr.act := by
        cases tr.act with
        | get k => rw [reply, reply, get_eq, get_eq, h.live]
        | _ => rfl
      rw [hreply]

end MemoryCache

/-- The store in memory is a bounded map with expiry: in every run of a store for at least one
entry, with non-empty keys, the number of entries stays within the bound. What `get` returns is the
value of the last `set` of the key, not deleted since and still to expire. An unexpired entry
goes without a `delete` only for a new key in a store full of unexpired entries, as one with the
least expiry and alone. The sweeps change no `get` unless two entries tie for the least expiry
when one has to go. The versions of the namespaces never decrease. -/
theorem memory_cache_bounded_map (maxEntries : Nat) (hpos : 1 ≤ maxEntries) (now : Nat)
    (trs : List (Transition MemoryCache MemoryAction)) (s : MemoryCache)
    (hrun : IsRun (MemoryCache.step maxEntries) (MemoryCache.init now) trs s)
    (hkeyed : ∀ tr ∈ trs, tr.act.Keyed) :
    s.entries.size ≤ maxEntries ∧
      (∀ k value, s.get k = some value →
        ∃ e, MemoryCache.lastSet k trs = some e ∧ e.value = value ∧ (s.now : Rat) < e.expiresAt) ∧
      (∀ tr ∈ trs, ∀ k e, tr.pre.entries.get? k = some e → (tr.pre.now : Rat) < e.expiresAt →
        tr.post.entries.get? k = none →
        tr.act = .delete k ∨
          ∃ k' value ttlSeconds elapsed, tr.act = .set k' value ttlSeconds elapsed ∧
            tr.pre.entries.get? k' = none ∧ tr.pre.entries.size = maxEntries ∧
            (∀ k₁ e₁, tr.pre.entries.get? k₁ = some e₁ →
              (tr.pre.now : Rat) < e₁.expiresAt ∧ e.expiresAt ≤ e₁.expiresAt) ∧
            ∀ k₁, k₁ ≠ k → k₁ ≠ k' → tr.post.entries.get? k₁ = tr.pre.entries.get? k₁) ∧
      ((∀ tr ∈ trs, MemoryCache.Untied maxEntries tr) →
        MemoryCache.gets maxEntries (MemoryCache.init now) (trs.map (·.act)) =
          MemoryCache.gets maxEntries (MemoryCache.init now)
            ((trs.map (·.act)).filter (· ≠ .sweep))) ∧
      ∀ tr ∈ trs, ∀ k, tr.pre.getNamespaceVersion k ≤ tr.post.getNamespaceVersion k ∧
        tr.post.getNamespaceVersion k ≤ s.getNamespaceVersion k := by
  have hinit : MemoryCache.Bounded maxEntries (MemoryCache.init now) :=
    ⟨Nat.zero_le _, fun k e hk => by cases hk⟩
  have hbounded := MemoryCache.mem_lastSet hpos hrun hkeyed
  have hget : ∀ k value, s.get k = some value →
      ∃ e, MemoryCache.lastSet k trs = some e ∧ e.value = value ∧ (s.now : Rat) < e.expiresAt := by
    intro k value hk
    obtain ⟨e, he, hvalue, hlive⟩ := MemoryCache.get_eq_some hk
    exact ⟨e, hbounded.2 k e he, hvalue, hlive⟩
  refine ⟨hbounded.1.size_le, hget, ?_, ?_, ?_⟩
  · intro tr htr k e he hlive hgone
    obtain ⟨xs, ys, rfl⟩ := List.append_of_mem htr
    obtain ⟨hxs, hstep, _⟩ := hrun.split
    have hpre := MemoryCache.mem_lastSet hpos hxs
      fun x hx => hkeyed x (List.mem_append_left _ hx)
    exact MemoryCache.disappears hpre.1 hpos hstep he hlive hgone
  · intro huntied
    exact MemoryCache.gets_sweep hpos hrun hkeyed huntied ⟨rfl, fun _ => rfl⟩ hinit hinit
  · intro tr htr k
    obtain ⟨xs, ys, rfl⟩ := List.append_of_mem htr
    obtain ⟨_, hstep, hys⟩ := hrun.split
    exact ⟨MemoryCache.getNamespaceVersion_step hstep k, MemoryCache.getNamespaceVersion_run hys k⟩

/-- Two entries of one second each in a store for one: the second `set` evicts the first. -/
private def evictingActs : List MemoryAction :=
  [.set "a" [1] 1 0, .bumpNamespaceVersion "n", .tick 500, .set "b" [2] 1 5, .get "b", .sweep]

theorem memory_cache_bounded_map_evicting :
    ∃ s : MemoryCache, s.entries.size ≤ 1 ∧ s.get "b" = some [2] ∧ s.getNamespaceVersion "n" = 1 ∧
      ∃ e, MemoryCache.lastSet "b" (trace (MemoryCache.step 1) (MemoryCache.init 0) evictingActs) =
        some e ∧ e.value = [2] := by
  have hrun : IsRun (MemoryCache.step 1) (MemoryCache.init 0)
      (trace (MemoryCache.step 1) (MemoryCache.init 0) evictingActs)
      ((exec (MemoryCache.step 1) (MemoryCache.init 0) evictingActs).get (by rfl)) :=
    isRun_trace _ _ _ (Option.some_get _).symm
  have h := memory_cache_bounded_map 1 (by decide) 0 _ _ hrun (by
    intro tr htr
    have hmem := act_mem_of_mem_trace _ _ _ htr
    have hall : ∀ a ∈ evictingActs, a.Keyed := by simp [evictingActs, MemoryAction.Keyed]
    exact hall _ hmem)
  have hget : MemoryCache.get ((exec (MemoryCache.step 1) (MemoryCache.init 0) evictingActs).get
      (by rfl)) "b" = some [2] := by decide +kernel
  obtain ⟨e, he, hvalue, _⟩ := h.2.1 "b" [2] hget
  exact ⟨_, h.1, hget, by decide +kernel, e, he, hvalue⟩

/-- Set again while it lies expired in the map, `a` keeps its old place before `b`, with which it
now ties; swept first, it comes after `b`. The eviction for `c` takes the first of the two. -/
theorem sweep_changes_get :
    ¬ ∀ (maxEntries : Nat) (now : Nat) (acts : List MemoryAction), 1 ≤ maxEntries →
      (∀ a ∈ acts, a.Keyed) →
      MemoryCache.gets maxEntries (MemoryCache.init now) acts =
        MemoryCache.gets maxEntries (MemoryCache.init now) (acts.filter (· ≠ .sweep)) := by
  intro h
  have htie := h 2 0 [.set "a" [1] 1 0, .set "b" [2] 10 0, .tick 2000, .sweep, .set "a" [3] 8 0,
    .set "c" [4] 100 0, .get "a", .get "b"] (by decide) (by simp [MemoryAction.Keyed])
  revert htie
  decide +kernel

end PetaCore
