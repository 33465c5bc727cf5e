import Mathlib.Data.List.Basic

/-!
# Fixed windows that open at a request

Requests at times that do not decrease are numbered within windows of a fixed length. The first
request opens a window, and the first one that is not in it any more opens the next. A limiter
that passes the first `limit` requests of each window is given by the numbers.

- `passed_le`: in no interval of the length of a window more than `2 * limit` requests pass
-/

namespace FixedWindow

/-- The place of a request: the start of its window, and its number there, from one on. -/
structure Place where
  start : Nat
  number : Nat
deriving DecidableEq

/-- The place of a request after the one with the last place. -/
def next (window : Nat) (last : Option Place) (now : Nat) : Place :=
  match last with
  | none => ⟨now, 1⟩
  | some place =>
    if place.start + window ≤ now then ⟨now, 1⟩ else ⟨place.start, place.number + 1⟩

/-- The places of requests at the given times. -/
def places (window : Nat) (last : Option Place) : List Nat → List Place
  | [] => []
  | now :: times => next window last now :: places window (some (next window last now)) times

variable {window : Nat} {last : Option Place} {place : Place}

theorem next_of_le {now : Nat} (h : place.start + window ≤ now) :
    next window (some place) now = ⟨now, 1⟩ := by
  rw [next, if_pos h]

theorem next_of_lt {now : Nat} (h : now < place.start + window) :
    next window (some place) now = ⟨place.start, place.number + 1⟩ := by
  rw [next, if_neg (by omega)]

theorem next_number_pos (now : Nat) : 1 ≤ (next window last now).number := by
  cases last with
  | none => exact Nat.le_refl 1
  | some place =>
    rw [next]
    split
    · exact Nat.le_refl 1
    · exact Nat.le_add_left 1 place.number

/-- A request is in its window. -/
theorem lt_next_start (hwindow : 0 < window) (now : Nat) :
    now < (next window last now).start + window := by
  cases last with
  | none => exact Nat.lt_add_of_pos_right hwindow
  | some place =>
    rw [next]
    split
    · exact Nat.lt_add_of_pos_right hwindow
    · show now < place.start + window
      omega

variable {times : List Nat}

/-- A request has the place after that of the request before it. -/
theorem getElem?_places_succ {i now : Nat}
    (hplace : (places window last times)[i]? = some place) (hnow : times[i + 1]? = some now) :
    (places window last times)[i + 1]? = some (next window (some place) now) := by
  induction times generalizing last i with
  | nil => cases hnow
  | cons now' times ih =>
    rw [List.getElem?_cons_succ] at hnow
    rw [places, List.getElem?_cons_succ]
    cases i with
    | zero =>
      rw [places, List.getElem?_cons_zero] at hplace
      cases hplace
      cases times with
      | nil => cases hnow
      | cons now'' times =>
        rw [List.getElem?_cons_zero] at hnow
        rw [places, List.getElem?_cons_zero, Option.some.inj hnow]
    | succ i =>
      rw [places, List.getElem?_cons_succ] at hplace
      exact ih hplace hnow

/-! ## The requests that pass -/

/-- The number of requests in the interval from `t` to `t + window` whose number in their window
    is at most `limit`. -/
def passed (window limit t : Nat) (last : Option Place) (times : List Nat) : Nat :=
  (times.zip (places window last times)).countP fun e =>
    t ≤ e.1 ∧ e.1 ≤ t + window ∧ e.2.number ≤ limit

variable {limit t : Nat}

theorem passed_cons (now : Nat) (times : List Nat) :
    passed window limit t last (now :: times) =
      passed window limit t (some (next window last now)) times +
        if t ≤ now ∧ now ≤ t + window ∧ (next window last now).number ≤ limit then 1 else 0 := by
  rw [passed, places, List.zip_cons_cons, List.countP_cons]
  simp only [decide_eq_true_eq]
  rfl

/-- After the interval no request counts. -/
theorem passed_eq_zero (h : ∀ now ∈ times, t + window < now) :
    passed window limit t last times = 0 := by
  induction times generalizing last with
  | nil => rfl
  | cons now times ih =>
    have hnow := h now List.mem_cons_self
    rw [passed_cons, ih fun now' hnow' => h now' (List.mem_cons_of_mem now hnow'), if_neg]
    omega

/-- A window that has opened within the interval is the last one that counts. -/
theorem passed_of_start_gt (htimes : times.Pairwise (· ≤ ·)) (hstart : t < place.start) :
    passed window limit t (some place) times ≤ limit - place.number := by
  induction times generalizing place with
  | nil => exact Nat.zero_le _
  | cons now times ih =>
    obtain ⟨hlater, htimes⟩ := List.pairwise_cons.mp htimes
    rw [passed_cons]
    by_cases hnow : place.start + window ≤ now
    · have hnone : passed window limit t (some (next window (some place) now)) times = 0 :=
        passed_eq_zero fun now' hnow' => by
          have := hlater now' hnow'
          omega
      rw [hnone, if_neg (by omega)]
      exact Nat.zero_le _
    · rw [next_of_lt (by omega)]
      have hrest : passed window limit t (some ⟨place.start, place.number + 1⟩) times ≤
          limit - (place.number + 1) := ih htimes hstart
      simp only
      split <;> omega

/-- When the interval begins before the end of a window, that window and the next one count. -/
theorem passed_of_end_gt (htimes : times.Pairwise (· ≤ ·)) (hend : t < place.start + window) :
    passed window limit t (some place) times ≤ limit - place.number + limit := by
  induction times generalizing place with
  | nil => exact Nat.zero_le _
  | cons now times ih =>
    obtain ⟨hlater, htimes⟩ := List.pairwise_cons.mp htimes
    rw [passed_cons]
    by_cases hnow : place.start + window ≤ now
    · rw [next_of_le hnow]
      have hlate : t < (⟨now, 1⟩ : Place).start := by
        show t < now
        omega
      have hrest : passed window limit t (some ⟨now, 1⟩) times ≤ limit - 1 :=
        passed_of_start_gt htimes hlate
      simp only
      split <;> omega
    · rw [next_of_lt (by omega)]
      have hrest : passed window limit t (some ⟨place.start, place.number + 1⟩) times ≤
          limit - (place.number + 1) + limit := ih htimes hend
      simp only
      split <;> omega

/-- In an interval of the length of a window at most `2 * limit` requests pass. -/
theorem passed_le (hwindow : 0 < window) (htimes : times.Pairwise (· ≤ ·)) :
    passed window limit t last times ≤ 2 * limit := by
  induction times generalizing last with
  | nil => exact Nat.zero_le _
  | cons now times ih =>
    obtain ⟨hlater, htimes⟩ := List.pairwise_cons.mp htimes
    rw [passed_cons]
    split
    · -- the first request that counts: its window and the next one
      have hpos : 1 ≤ (next window last now).number := next_number_pos now
      have hlt : now < (next window last now).start + window := lt_next_start hwindow now
      have hrest : passed window limit t (some (next window last now)) times ≤
          limit - (next window last now).number + limit :=
        passed_of_end_gt htimes (by omega)
      omega
    · exact ih htimes

end FixedWindow
