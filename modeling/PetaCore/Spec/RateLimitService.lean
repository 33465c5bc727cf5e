import PetaCore.ForStd.FixedWindow
import PetaCore.Core.RateLimitService

/-!
# The limiter is one of fixed windows

The record of a user follows the numbering of the user's requests: it has the start of the last
window and the number of the last request, up to the limit. A record that the clean-up deletes is
one whose window is over, so that the next request opens a new one with it or without it.

Key results:
- `checkRateLimit_follows`, `cleanup_follows`: what each event does to the record of a user
- `userResults_run`: the results of a user are those of the numbering
- `rate_limit_fixed_window`: the limiter, the bound for an interval, and the retry
-/

namespace PetaCore

open FixedWindow

namespace RateLimitService

/-- What a limiter of fixed windows answers to a request by its place: it is allowed when its
    number is at most the limit. -/
def resultOf (rateLimit now : Nat) (place : Place) : RateLimitResult :=
  if place.number ≤ rateLimit then
    ⟨true, rateLimit - place.number, place.start + windowSize, none⟩
  else
    ⟨false, 0, place.start + windowSize, some ((place.start + windowSize - now + 999) / 1000)⟩

/-- The results of a limiter of fixed windows for requests at the given times. -/
def referenceResults (rateLimit : Nat) (last : Option Place) (times : List Nat) :
    List (Nat × RateLimitResult) :=
  (times.zip (places windowSize last times)).map fun e => (e.1, resultOf rateLimit e.1 e.2)

/-- The record of a user at a time, and the last place of the user. -/
structure Recorded (rateLimit now : Nat) (record : UserRequestCount) (place : Place) : Prop where
  windowStart : record.windowStart = place.start
  count : record.count = min place.number rateLimit
  startLe : place.start ≤ now
  lastRequest : place.start ≤ record.lastRequestTime

/-- Without a record, the last window of the user is over. -/
def Follows (rateLimit now : Nat) (record : Option UserRequestCount) (last : Option Place) :
    Prop :=
  match record with
  | none => ∀ place, last = some place → place.start + windowSize ≤ now
  | some record => ∃ place, last = some place ∧ Recorded rateLimit now record place

variable {rateLimit now now' : Nat} {record : Option UserRequestCount} {last : Option Place}

theorem Follows.later (h : Follows rateLimit now record last) (hle : now ≤ now') :
    Follows rateLimit now' record last := by
  cases record with
  | none =>
    intro place hplace
    have := h place hplace
    omega
  | some record =>
    obtain ⟨place, hplace, hrecorded⟩ := h
    exact ⟨place, hplace, { hrecorded with startLe := Nat.le_trans hrecorded.startLe hle }⟩

/-- The first request of a window. -/
theorem recorded_first (hlimit : 1 ≤ rateLimit) :
    Recorded rateLimit now ⟨1, now, now⟩ ⟨now, 1⟩ :=
  ⟨rfl, (Nat.min_eq_left hlimit).symm, Nat.le_refl now, Nat.le_refl now⟩

variable {userId : String} {s : RateLimitService}

/-- A request gets the answer for its place, and the record follows. -/
theorem checkRateLimit_follows (hlimit : 1 ≤ rateLimit)
    (h : Follows rateLimit now (s.userRequestCounts.get? userId) last) :
    (s.checkRateLimit now userId rateLimit).1 =
        resultOf rateLimit now (next windowSize last now) ∧
      Follows rateLimit now
        ((s.checkRateLimit now userId rateLimit).2.userRequestCounts.get? userId)
        (some (next windowSize last now)) := by
  have hfirst : resultOf rateLimit now ⟨now, 1⟩ =
      ⟨true, rateLimit - 1, now + windowSize, none⟩ := by
    rw [resultOf, if_pos hlimit]
    rfl
  cases hrecord : s.userRequestCounts.get? userId with
  | none =>
    rw [hrecord] at h
    have hnext : next windowSize last now = ⟨now, 1⟩ := by
      cases last with
      | none => rfl
      | some place => exact next_of_le (h place rfl)
    simp only [checkRateLimit, hrecord, hnext, hfirst, setCount, Dict.get?_set_self]
    exact ⟨trivial, ⟨now, 1⟩, rfl, recorded_first hlimit⟩
  | some record =>
    rw [hrecord] at h
    obtain ⟨place, rfl, hrecorded⟩ := h
    have hstart := hrecorded.windowStart
    have hcount := hrecorded.count
    simp only [checkRateLimit, hrecord]
    split
    · next hreset =>
      rw [hstart] at hreset
      simp only [next_of_le hreset, hfirst, setCount, Dict.get?_set_self]
      exact ⟨trivial, ⟨now, 1⟩, rfl, recorded_first hlimit⟩
    · next hsame =>
      rw [hstart] at hsame
      rw [next_of_lt (by omega)]
      split
      · next hfull =>
        -- the limit is reached: the record stays
        have hnumber : ¬place.number + 1 ≤ rateLimit := by omega
        rw [resultOf, if_neg hnumber, hrecord, hstart]
        refine ⟨rfl, ⟨place.start, place.number + 1⟩, rfl, hstart, ?_, hrecorded.startLe,
          hrecorded.lastRequest⟩
        show record.count = min (place.number + 1) rateLimit
        omega
      · next hroom =>
        have hnumber : record.count = place.number := by omega
        have hle : place.number + 1 ≤ rateLimit := by omega
        rw [resultOf, if_pos hle, hnumber, hstart]
        simp only [setCount, Dict.get?_set_self]
        refine ⟨trivial, ⟨place.start, place.number + 1⟩, rfl, rfl, ?_, hrecorded.startLe,
          hrecorded.startLe⟩
        show place.number + 1 = min (place.number + 1) rateLimit
        omega

/-- A request of another user leaves the record. -/
theorem checkRateLimit_other {other : String} (hne : userId ≠ other) :
    (s.checkRateLimit now other rateLimit).2.userRequestCounts.get? userId =
      s.userRequestCounts.get? userId := by
  unfold checkRateLimit
  split
  · exact Dict.get?_set_ne _ _ hne
  · split
    · exact Dict.get?_set_ne _ _ hne
    · split
      · rfl
      · exact Dict.get?_set_ne _ _ hne

/-- The clean-up deletes a record only after its window. -/
theorem cleanup_follows (h : Follows rateLimit now (s.userRequestCounts.get? userId) last) :
    Follows rateLimit now ((s.cleanupExpiredCounts now).userRequestCounts.get? userId) last := by
  rw [cleanupExpiredCounts, Dict.get?_filter]
  cases hrecord : s.userRequestCounts.get? userId with
  | none =>
    rw [hrecord] at h
    exact h
  | some record =>
    rw [hrecord] at h
    by_cases hexpired : record.lastRequestTime + windowSize * 2 < now
    · rw [Option.filter_some_neg (by simp [hexpired])]
      obtain ⟨place, rfl, hrecorded⟩ := h
      rintro _ ⟨⟩
      have := hrecorded.lastRequest
      omega
    · rw [Option.filter_some_pos (by simp [hexpired])]
      exact h

/-! ## The results of a user -/

/-- The times of the requests of a user. -/
def requestTimes (userId : String) (events : List (Nat × RateLimitEvent)) : List Nat :=
  events.filterMap fun e => if e.2 = .request userId then some e.1 else none

/-- The results of the requests of a user, with their times. -/
def userResults (userId : String) (results : List (Nat × String × RateLimitResult)) :
    List (Nat × RateLimitResult) :=
  results.filterMap fun r => if r.2.1 = userId then some (r.1, r.2.2) else none

/-- The results of a user are those of the windows of the user's own requests. -/
theorem userResults_run {limit : String → Nat} (hlimit : 1 ≤ limit userId)
    {events : List (Nat × RateLimitEvent)}
    (hclock : events.Pairwise fun e e' => e.1 ≤ e'.1) (hnow : ∀ e ∈ events, now ≤ e.1)
    (h : Follows (limit userId) now (s.userRequestCounts.get? userId) last) :
    userResults userId (run limit s events) =
      referenceResults (limit userId) last (requestTimes userId events) := by
  induction events generalizing s now last with
  | nil => rfl
  | cons e events ih =>
    obtain ⟨time, event⟩ := e
    obtain ⟨hlater, hrestclock⟩ := List.pairwise_cons.mp hclock
    have hhere := h.later (hnow (time, event) List.mem_cons_self)
    cases event with
    | cleanup => exact ih hrestclock hlater (cleanup_follows hhere)
    | request other =>
      by_cases hother : other = userId
      · subst hother
        obtain ⟨hresult, hfollows⟩ := checkRateLimit_follows hlimit hhere
        have hrest := ih hrestclock hlater hfollows
        simp only [run, userResults, requestTimes, List.filterMap_cons, if_true, referenceResults,
          places, List.zip_cons_cons, List.map_cons, hresult]
        exact congrArg _ hrest
      · have hsame : Follows (limit userId) time
            ((s.checkRateLimit time other (limit other)).2.userRequestCounts.get? userId) last := by
          rw [checkRateLimit_other (Ne.symm hother)]
          exact hhere
        have hrest := ih hrestclock hlater hsame
        have hskip : requestTimes userId ((time, .request other) :: events) =
            requestTimes userId events := by
          simp [requestTimes, hother]
        rw [hskip, ← hrest]
        simp [run, userResults, hother]

theorem pairwise_requestTimes {events : List (Nat × RateLimitEvent)}
    (hclock : events.Pairwise fun e e' => e.1 ≤ e'.1) :
    (requestTimes userId events).Pairwise (· ≤ ·) := by
  refine List.Pairwise.filterMap _ ?_ hclock
  intro e e' hle time htime time' htime'
  split at htime
  · split at htime'
    · cases htime
      cases htime'
      exact hle
    · cases htime'
  · cases htime

theorem allowed_resultOf (place : Place) :
    (resultOf rateLimit now place).allowed = decide (place.number ≤ rateLimit) := by
  unfold resultOf
  split
  · next h => exact (decide_eq_true h).symm
  · next h => exact (decide_eq_false h).symm

/-- The allowed requests of an interval are those that pass. -/
theorem countP_referenceResults (rateLimit t : Nat) (last : Option Place) (times : List Nat) :
    ((referenceResults rateLimit last times).countP fun e =>
      t ≤ e.1 ∧ e.1 ≤ t + windowSize ∧ e.2.allowed = true) =
      passed windowSize rateLimit t last times := by
  rw [referenceResults, List.countP_map, passed]
  congr 1
  funext e
  simp only [Function.comp_apply, allowed_resultOf, decide_eq_true_eq]

/-- A request as much later as a denial says is in a new window. -/
theorem allowed_after_denial {times : List Nat} {i r now : Nat} {a b : RateLimitResult}
    (hlimit : 1 ≤ rateLimit)
    (ha : (referenceResults rateLimit last times)[i]? = some (now, a)) (hr : a.retryAfter = some r)
    (hb : (referenceResults rateLimit last times)[i + 1]? = some (now + 1000 * r, b)) :
    b.allowed = true := by
  simp only [referenceResults, List.getElem?_map, Option.map_eq_some_iff,
    List.getElem?_zip_eq_some, Prod.exists, Prod.mk.injEq] at ha hb
  obtain ⟨_, place, ⟨-, hplace⟩, rfl, rfl⟩ := ha
  obtain ⟨_, place', ⟨htime', hplace'⟩, rfl, rfl⟩ := hb
  rw [getElem?_places_succ hplace htime'] at hplace'
  rw [allowed_resultOf, ← Option.some.inj hplace', decide_eq_true_eq]
  unfold resultOf at hr
  split at hr
  · cases hr
  · have hceil := Option.some.inj hr
    rw [next_of_le (by omega)]
    exact hlimit

/-- The limiter over any sequence of requests and clean-ups: the results of a user are those of
    fixed windows over the user's own requests, in no interval of a window's length more than
    twice the limit are allowed, and after a denial a request that comes as much later as it says
    is allowed. -/
theorem rate_limit_fixed_window (limit : String → Nat) (hlimit : ∀ userId, 1 ≤ limit userId)
    (events : List (Nat × RateLimitEvent)) (hclock : events.Pairwise fun e e' => e.1 ≤ e'.1)
    (userId : String) :
    userResults userId (run limit empty events) =
        referenceResults (limit userId) none (requestTimes userId events) ∧
      (∀ t, ((userResults userId (run limit empty events)).countP fun e =>
        t ≤ e.1 ∧ e.1 ≤ t + windowSize ∧ e.2.allowed = true) ≤ 2 * limit userId) ∧
      ∀ i now r a b, (userResults userId (run limit empty events))[i]? = some (now, a) →
        a.allowed = false → a.retryAfter = some r →
        (userResults userId (run limit empty events))[i + 1]? = some (now + 1000 * r, b) →
        b.allowed = true := by
  have hresults : userResults userId (run limit empty events) =
      referenceResults (limit userId) none (requestTimes userId events) := by
    refine userResults_run (hlimit userId) hclock (fun e _ => Nat.zero_le e.1) ?_
    intro place hplace
    cases hplace
  refine ⟨hresults, ?_, ?_⟩
  · intro t
    rw [hresults, countP_referenceResults]
    exact passed_le (by decide) (pairwise_requestTimes hclock)
  · intro i now r a b ha _ hr hb
    rw [hresults] at ha hb
    exact allowed_after_denial (hlimit userId) ha hr hb

/-- One user with the limit one, whose second request is denied, and whose record the clean-up
    deletes. -/
theorem rate_limit_fixed_window_alice :
    userResults "alice" (run (fun _ => 1) empty
        [(0, .request "alice"), (500, .request "alice"), (59500, .request "bob"),
          (60500, .request "alice"), (180501, .cleanup), (180501, .request "alice")]) =
      referenceResults 1 none [0, 500, 60500, 180501] ∧
    userResults "alice" (run (fun _ => 1) empty
        [(0, .request "alice"), (500, .request "alice"), (59500, .request "bob"),
          (60500, .request "alice"), (180501, .cleanup), (180501, .request "alice")]) =
      [(0, ⟨true, 0, 60000, none⟩), (500, ⟨false, 0, 60000, some 60⟩),
        (60500, ⟨true, 0, 120500, none⟩), (180501, ⟨true, 0, 240501, none⟩)] :=
  ⟨(rate_limit_fixed_window (fun _ => 1) (fun _ => Nat.le_refl 1) _ (by decide) "alice").1,
    by decide +kernel⟩

end RateLimitService

end PetaCore
