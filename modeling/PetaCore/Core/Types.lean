/-!
# Enumerations and clock

The enumerations of `types/enums.ts` that the modelled components use, and the clock.
-/

namespace PetaCore

/-- Milliseconds since the epoch, as `Date.now()` and the database's `NOW()` give them. -/
abbrev Timestamp := Int

/-- `UserRole` -/
inductive UserRole where
  | owner
  | admin
  | user
  | guest
deriving DecidableEq

/-- `UserStatus` -/
inductive UserStatus where
  | disabled
  | enabled
  | pending
  | suspended
deriving DecidableEq

/-- `DangerLevel`, in increasing order -/
inductive DangerLevel where
  | silent
  | notification
  | approval
deriving DecidableEq

/-- `PolicyDecision` -/
inductive PolicyDecision where
  | allow
  | requireApproval
  | deny
deriving DecidableEq

/-- `ServerStatus` -/
inductive ServerStatus where
  | online
  | offline
  | connecting
  | error
  | sleeping
deriving DecidableEq

/-- `ApprovalStatus` -/
inductive ApprovalStatus where
  | pending
  | approved
  | rejected
  | expired
  | executing
  | executed
  | failed
deriving DecidableEq

namespace ApprovalStatus

/-- The statuses covered by the partial unique index on `request_hash`. -/
def isActive : ApprovalStatus → Bool
  | pending | approved | executing => true
  | rejected | expired | executed | failed => false

/-- The statuses that still wait for a decision or a claim, and so can lapse. -/
def isOpen : ApprovalStatus → Bool
  | pending | approved => true
  | rejected | expired | executing | executed | failed => false

/-- The statuses that no statement leaves. -/
def isTerminal (s : ApprovalStatus) : Bool := !s.isActive

end ApprovalStatus

/-- The white space and line terminators of ECMAScript, which `trim` removes. -/
def isJsWhitespace (c : Char) : Bool :=
  let n := c.toNat
  (9 ≤ n && n ≤ 13) || n == 0x20 || n == 0xA0 || n == 0x1680 || (0x2000 ≤ n && n ≤ 0x200A) ||
    n == 0x2028 || n == 0x2029 || n == 0x202F || n == 0x205F || n == 0x3000 || n == 0xFEFF

theorem not_isJsWhitespace_of_isDigit {c : Char} (h : c.isDigit = true) :
    isJsWhitespace c = false := by
  simp only [Char.isDigit, Bool.and_eq_true, decide_eq_true_eq, UInt32.le_iff_toNat_le] at h
  have hlo : 48 ≤ c.toNat := h.1
  have hhi : c.toNat ≤ 57 := h.2
  simp only [isJsWhitespace, Bool.or_eq_false_iff, Bool.and_eq_false_iff, beq_eq_false_iff_ne,
    decide_eq_false_iff_not]
  omega

/-- `!text.trim()` -/
def isBlank (text : String) : Bool := text.toList.all isJsWhitespace

/-- `text.trim()` -/
def trim (text : String) : String :=
  String.ofList ((text.toList.dropWhile isJsWhitespace).reverse.dropWhile isJsWhitespace).reverse

end PetaCore
