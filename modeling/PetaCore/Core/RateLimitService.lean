import PetaCore.ForStd.Dict

/-!
# RateLimitService

The limiter of the requests of a user. Times are in milliseconds, as read from the clock.
-/

namespace PetaCore

structure RateLimitResult where
  allowed : Bool
  remaining : Int
  resetTime : Nat
  /-- in seconds -/
  retryAfter : Option Nat
deriving DecidableEq

structure UserRequestCount where
  count : Nat
  windowStart : Nat
  lastRequestTime : Nat
deriving DecidableEq

structure RateLimitService where
  userRequestCounts : Dict UserRequestCount

namespace RateLimitService

def windowSize : Nat := 60 * 1000

def empty : RateLimitService := ⟨.empty⟩

def setCount (s : RateLimitService) (userId : String) (count : UserRequestCount) :
    RateLimitService :=
  ⟨s.userRequestCounts.set userId count⟩

def checkRateLimit (s : RateLimitService) (now : Nat) (userId : String) (rateLimit : Nat) :
    RateLimitResult × RateLimitService :=
  match s.userRequestCounts.get? userId with
  | none =>
    (⟨true, rateLimit - 1, now + windowSize, none⟩, s.setCount userId ⟨1, now, now⟩)
  | some userCount =>
    -- the time window needs to be reset
    if userCount.windowStart + windowSize ≤ now then
      (⟨true, rateLimit - 1, now + windowSize, none⟩, s.setCount userId ⟨1, now, now⟩)
    else if rateLimit ≤ userCount.count then
      let resetTime := userCount.windowStart + windowSize
      -- `Math.ceil((resetTime - now) / 1000)`
      let retryAfter := (resetTime - now + 999) / 1000
      (⟨false, 0, resetTime, some retryAfter⟩, s)
    else
      (⟨true, rateLimit - (userCount.count + 1 : Nat), userCount.windowStart + windowSize, none⟩,
        s.setCount userId ⟨userCount.count + 1, userCount.windowStart, now⟩)

def cleanupExpiredCounts (s : RateLimitService) (now : Nat) : RateLimitService :=
  ⟨s.userRequestCounts.filter fun count => !decide (count.lastRequestTime + windowSize * 2 < now)⟩

/-- What happens at a time: a request of a user, or the clean-up timer. -/
inductive RateLimitEvent where
  | request (userId : String)
  | cleanup
deriving DecidableEq

/-- The results of the requests among the events, with their times and users. `rateLimit` is the
    limit of each user. -/
def run (rateLimit : String → Nat) (s : RateLimitService) :
    List (Nat × RateLimitEvent) → List (Nat × String × RateLimitResult)
  | [] => []
  | (now, .request userId) :: events =>
    let (result, s) := s.checkRateLimit now userId (rateLimit userId)
    (now, userId, result) :: run rateLimit s events
  | (now, .cleanup) :: events => run rateLimit (s.cleanupExpiredCounts now) events

end RateLimitService

end PetaCore
