import PetaCore.ForStd.JsDouble
import PetaCore.ForStd.Segments
import PetaCore.ForStd.Table
import PetaCore.Core.Types

/-!
# IpWhitelist

The IP whitelist is stored in the table `ip_whitelist` and enforced from memory. The operations of
the admins write the table and then reload the list in memory; a request reloads it when the list in
memory is older than 15 minutes.
-/

namespace PetaCore

structure IpWhitelistRow where
  id : Nat
  ip : String
deriving DecidableEq

structure AdminError where
  message : String
  code : Nat
deriving DecidableEq

namespace AdminErrorCode

def invalidRequest : Nat := 1001
def invalidIpFormat : Nat := 5102

end AdminErrorCode

/-- The data of a request, where `none` stands for a value that is not an array (or, of `operation`,
    not a text). -/
inductive IpWhitelistRequest where
  | update (whitelist : Option (List String))
  | delete (ips : Option (List String))
  | add (ips : Option (List String))
  | special (operation : Option String)
deriving DecidableEq

/-- A request that has passed the checks of its handler. -/
inductive IpWhitelistOperation where
  | update (whitelist : List String)
  | delete (ips : List String)
  | add (ips : List String)
  | allowAll
  | denyAll
deriving DecidableEq

/-! ## The checks -/

/-- The number made of the digits of a text, up to the first character that is not a digit. -/
def parseDigits (base : Nat) (digit : Char → Option Nat) : List Char → Option Nat → Option Nat
  | [], acc => acc
  | c :: cs, acc =>
    match digit c with
    | none => acc
    | some d => parseDigits base digit cs (some (acc.getD 0 * base + d))

def decimalDigit (c : Char) : Option Nat :=
  if c.isDigit then some (c.toNat - '0'.toNat) else none

def hexDigit (c : Char) : Option Nat :=
  if c.isDigit then some (c.toNat - '0'.toNat)
  else if 'a' ≤ c ∧ c ≤ 'f' then some (c.toNat - 'a'.toNat + 10)
  else if 'A' ≤ c ∧ c ≤ 'F' then some (c.toNat - 'A'.toNat + 10)
  else none

def parseUnsigned : List Char → Option Nat
  | '0' :: 'x' :: cs | '0' :: 'X' :: cs => parseDigits 16 hexDigit cs none
  | cs => parseDigits 10 decimalDigit cs none

/-- `parseInt(text)`, with `none` for `NaN`. -/
def parseInt (text : List Char) : Option Int :=
  match text.dropWhile isJsWhitespace with
  | '-' :: cs => (parseUnsigned cs).map fun n => -(n : Int)
  | '+' :: cs => (parseUnsigned cs).map fun n => (n : Int)
  | cs => (parseUnsigned cs).map fun n => (n : Int)

theorem parseDigits_decimal (cs : List Char) (hdigits : ∀ c ∈ cs, c.isDigit = true) (acc : Nat) :
    parseDigits 10 decimalDigit cs (some acc) = some (Nat.ofDigitChars 10 cs acc) := by
  induction cs generalizing acc with
  | nil => simp [parseDigits]
  | cons c cs ih =>
    have hc : c.isDigit = true := hdigits c List.mem_cons_self
    have hrest := ih fun d hd => hdigits d (List.mem_cons_of_mem c hd)
    rw [parseDigits, decimalDigit, if_pos hc, Nat.ofDigitChars_cons]
    show parseDigits 10 decimalDigit cs (some (acc * 10 + (c.toNat - '0'.toNat))) = _
    rw [hrest, Nat.mul_comm]

/-- A decimal numeral is a digit and further ones, which are read as the number it shows. -/
theorem exists_toDigits_eq_cons (n : Nat) : ∃ c cs, Nat.toDigits 10 n = c :: cs ∧
    (∀ d ∈ c :: cs, d.isDigit = true) ∧ parseDigits 10 decimalDigit (c :: cs) none = some n := by
  have hall : ∀ c ∈ Nat.toDigits 10 n, c.isDigit = true :=
    fun c hc => Nat.isDigit_of_mem_toDigits (by decide) (by decide) hc
  have hvalue : Nat.ofDigitChars 10 (Nat.toDigits 10 n) 0 = n :=
    Nat.ofDigitChars_toDigits (by decide) (by decide)
  cases hdigits : Nat.toDigits 10 n with
  | nil => exact absurd hdigits Nat.toDigits_ne_nil
  | cons c cs =>
    rw [hdigits] at hall hvalue
    have hc : c.isDigit = true := hall c List.mem_cons_self
    have hfirst := parseDigits_decimal (c :: cs) hall 0
    rw [hvalue, parseDigits, decimalDigit, if_pos hc] at hfirst
    refine ⟨c, cs, rfl, hall, ?_⟩
    rw [parseDigits, decimalDigit, if_pos hc]
    exact hfirst

/-- A text that begins with a digit has no blank and no sign in front. -/
theorem dropWhile_of_isDigit {c : Char} (hc : c.isDigit = true) (cs : List Char) :
    (c :: cs).dropWhile isJsWhitespace = c :: cs ∧ c ≠ '-' ∧ c ≠ '+' := by
  refine ⟨List.dropWhile_cons_of_neg (by rw [not_isJsWhitespace_of_isDigit hc]; decide), ?_, ?_⟩
  all_goals
    rintro rfl
    exact absurd hc (by decide)

/-- A decimal numeral is read as the number it shows. -/
theorem parseInt_toString (n : Nat) : parseInt (toString n).toList = some (n : Int) := by
  obtain ⟨c, cs, hdigits, hall, hread⟩ := exists_toDigits_eq_cons n
  obtain ⟨hdrop, hminus, hplus⟩ := dropWhile_of_isDigit (hall c List.mem_cons_self) cs
  have hunsigned : parseUnsigned (c :: cs) = some n := by
    unfold parseUnsigned
    split
    case h_1 _ _ hhex =>
      rw [(List.cons.inj hhex).2] at hall
      exact absurd (hall 'x' (by simp)) (by decide)
    case h_2 _ _ hhex =>
      rw [(List.cons.inj hhex).2] at hall
      exact absurd (hall 'X' (by simp)) (by decide)
    case h_3 => exact hread
  rw [parseInt, Nat.toList_toString, hdigits, hdrop]
  split
  case h_1 _ hsign => exact absurd (List.cons.inj hsign).1 hminus
  case h_2 _ hsign => exact absurd (List.cons.inj hsign).1 hplus
  case h_3 =>
    rw [hunsigned]
    rfl

def isValidIp (ip : List Char) : Bool :=
  let parts := ip.splitOn '.'
  parts.length = 4 && parts.all fun part =>
    match parseInt part with
    | none => false
    | some num => 0 ≤ num && num ≤ 255 && part = (toString num).toList

def isValidIpOrCidr (entry : String) : Bool :=
  if entry = "0.0.0.0/0" then true
  else
    match entry.toList.splitOn '/' with
    | ip :: bits :: _ =>
      match parseInt bits with
      | none => false
      | some bitsNum => 0 ≤ bitsNum && bitsNum ≤ 32 && isValidIp ip
    | _ => isValidIp entry.toList

/-! ## Matching -/

/-- The double nearest to an integer. -/
def numberOfInt (i : Int) : Int :=
  let double := JsNumber.fraction (JsNumber.nearestDouble i.natAbs 1)
  i.sign * (double.1 / double.2 : Nat)

/-- `x << count`; of the count only the last five bits matter. -/
def shiftLeft (x : BitVec 32) (count : Int) : BitVec 32 := x <<< (count % 32).toNat

/-- The loop of `ipToNumber`, with `none` when it throws. -/
def addOctets : List (List Char) → Int → Option Int
  | [], result => some result
  | part :: parts, result =>
    match parseInt part with
    | none => none
    | some num =>
      if num < 0 ∨ 255 < num then none
      else addOctets parts ((shiftLeft (BitVec.ofInt 32 result) 8).toInt + num)

/-- `ipToNumber`, with `none` when it throws. -/
def ipToNumber (ip : List Char) : Option (BitVec 32) :=
  let parts := ip.splitOn '.'
  if parts.length ≠ 4 then none
  else (addOctets parts 0).map (BitVec.ofInt 32)

def normalizeIp (ip : String) : String :=
  let mappedPrefix := "::ffff:".toList
  if mappedPrefix <+: ip.toList then String.ofList (ip.toList.drop mappedPrefix.length)
  else if ip = "::1" then "127.0.0.1"
  else ip

def isIpMatch (ip pattern : String) : Bool :=
  let normalizedIp := normalizeIp ip
  match pattern.toList.splitOn '/' with
  | network :: bits :: _ =>
    let bitsNum := (parseInt bits).map numberOfInt
    if bitsNum = some 0 then true
    else
      -- without a number the count is `NaN`, which shifts by nothing
      let mask := shiftLeft 0xffffffff ((bitsNum.map fun n => numberOfInt (32 - n)).getD 0)
      match ipToNumber normalizedIp.toList, ipToNumber network with
      | some ipNum, some networkNum => ipNum &&& mask == networkNum &&& mask
      | _, _ => false
  | _ => normalizedIp = pattern

namespace IpWhitelistRequest

/-- What the handlers check before their first statement. -/
def check : IpWhitelistRequest → Except AdminError IpWhitelistOperation
  | .update none => .error ⟨"Invalid whitelist format", AdminErrorCode.invalidRequest⟩
  | .update (some whitelist) => .ok (.update whitelist)
  | .delete none | .delete (some []) =>
    .error ⟨"Invalid ips array", AdminErrorCode.invalidRequest⟩
  | .delete (some ips) => .ok (.delete ips)
  | .add none | .add (some []) => .error ⟨"Invalid ips array", AdminErrorCode.invalidRequest⟩
  | .add (some ips) =>
    match ips.find? fun ip => !isValidIpOrCidr ip with
    | some ip => .error ⟨s!"Invalid IP/CIDR format: {ip}", AdminErrorCode.invalidIpFormat⟩
    | none => .ok (.add ips)
  | .special operation =>
    if operation = some "allow-all" then .ok .allowAll
    else if operation = some "deny-all" then .ok .denyAll
    else .error ⟨"Invalid operation. Must be \"allow-all\" or \"deny-all\"",
      AdminErrorCode.invalidRequest⟩

end IpWhitelistRequest

/-! ## The calls -/

inductive WhitelistStage where
  | called (operation : IpWhitelistOperation)
  | deleting (ids : List Nat)
  | creating (newIps : List String)
  /-- the query of the rows that have been created -/
  | created (newIps : List String)
  | creatingWildcard
  | deletingWildcard
  /-- `loadFromDatabase` -/
  | reloading
  /-- the rows that have been read are not in memory yet -/
  | loading (records : List IpWhitelistRow) (readAt : Nat)
  | returned
  | rejected (error : AdminError)
  | failed
deriving DecidableEq

inductive WhitelistOrigin where
  /-- `initialize` -/
  | startup
  | refresh
  | admin
deriving DecidableEq

structure WhitelistCall where
  origin : WhitelistOrigin
  stage : WhitelistStage
deriving DecidableEq

/-- The table, the service and the calls. `writes` and `loadedAt` are not of the source: how often
    the table has been written, and how often it had been when the rows in memory were read (as
    `readAt` is for rows that are not in memory yet). -/
structure IpWhitelistState where
  rows : List IpWhitelistRow
  nextId : Nat
  whitelist : List String
  lastCacheUpdate : Nat
  now : Nat
  calls : Table WhitelistCall
  writes : Nat
  loadedAt : Nat
deriving DecidableEq

inductive IpWhitelistAction where
  | request (request : IpWhitelistRequest)
  /-- `getIpWhitelist`, for a client -/
  | access
  | tick (time : Nat)
  /-- the next statement of a call is executed -/
  | statement (call : Nat)
  /-- the next statement of a call throws -/
  | statementFails (call : Nat)
  /-- a call puts the rows it has read in memory -/
  | assign (call : Nat)
deriving DecidableEq

namespace IpWhitelistState

def wildcard : String := "0.0.0.0/0"

/-- `cacheExpiry` -/
def cacheExpiry : Nat := 15 * 60 * 1000

/-- The service when its constructor has called `initialize`. -/
def init (rows : List IpWhitelistRow) (nextId now : Nat) : IpWhitelistState where
  rows
  nextId
  whitelist := [wildcard]
  lastCacheUpdate := 0
  now
  calls := Table.empty.add ⟨.startup, .reloading⟩
  writes := 0
  loadedAt := 0

/-- `IpWhitelistRepository.findAll` -/
def findAll (s : IpWhitelistState) : List IpWhitelistRow :=
  s.rows.insertionSort fun a b => a.id ≤ b.id

/-- `findMany({ where: { ip: { in: ips } } })` -/
def findByIps (s : IpWhitelistState) (ips : List String) : List IpWhitelistRow :=
  s.rows.filter fun row => row.ip ∈ ips

/-- What `loadFromDatabase` puts in memory for the rows it has read. -/
def whitelistOf (records : List IpWhitelistRow) : List String :=
  if records = [] then [wildcard] else records.map (·.ip)

/-- `isIpAllowed`, with the list in memory. -/
def isIpAllowed (whitelist : List String) (clientIp : String) : Bool :=
  if wildcard ∈ whitelist then true else whitelist.any (isIpMatch clientIp)

/-- The list that `handleGetIpWhitelist` reports for the rows it has read. -/
def handleGetIpWhitelist (records : List IpWhitelistRow) : List String :=
  let whitelist := records.map (·.ip)
  if whitelist = [] then [wildcard]
  else
    let nonWildcardRecords := records.filter fun row => row.ip ≠ wildcard
    if nonWildcardRecords ≠ [] then [wildcard] else whitelist

def newRows (ips : List String) (nextId : Nat) : List IpWhitelistRow :=
  ips.zipIdx.map fun p => ⟨nextId + p.2, p.1⟩

/-- `createMany` -/
def createMany (s : IpWhitelistState) (ips : List String) : IpWhitelistState :=
  { s with
    rows := s.rows ++ newRows ips s.nextId
    nextId := s.nextId + ips.length
    writes := s.writes + 1 }

/-- `deleteMany` -/
def deleteMany (s : IpWhitelistState) (p : IpWhitelistRow → Bool) : IpWhitelistState :=
  { s with rows := s.rows.filter fun row => !p row, writes := s.writes + 1 }

/-- The transaction of `handleUpdateIpWhitelist`. -/
def replaceAll (s : IpWhitelistState) (whitelist : List String) : IpWhitelistState :=
  { s with
    rows := newRows whitelist s.nextId
    nextId := s.nextId + whitelist.length
    writes := s.writes + 1 }

def setStage (s : IpWhitelistState) (i : Nat) (origin : WhitelistOrigin) (stage : WhitelistStage) :
    IpWhitelistState :=
  { s with calls := s.calls.put i ⟨origin, stage⟩ }

/-- The first statement of a handler. -/
def begin (s : IpWhitelistState) (i : Nat) (origin : WhitelistOrigin) :
    IpWhitelistOperation → IpWhitelistState
  | .update whitelist => (s.replaceAll whitelist).setStage i origin .reloading
  | .delete ips =>
    let records := s.findByIps ips
    if records = [] then s.setStage i origin .returned
    else s.setStage i origin (.deleting (records.map (·.id)))
  | .add ips =>
    let existingIps := (s.findByIps ips).map (·.ip)
    let newIps := ips.filter fun ip => ip ∉ existingIps
    if newIps = [] then s.setStage i origin .reloading
    else s.setStage i origin (.creating newIps)
  | .allowAll =>
    if s.findByIps [wildcard] = [] then s.setStage i origin .creatingWildcard
    else s.setStage i origin .reloading
  | .denyAll =>
    if s.rows.filter (fun row => row.ip ≠ wildcard) = [] then s.setStage i origin .reloading
    else s.setStage i origin .deletingWildcard

/-- The next statement of a call. -/
def statement (s : IpWhitelistState) (i : Nat) (call : WhitelistCall) : Option IpWhitelistState :=
  match call.stage with
  | .called operation => some (s.begin i call.origin operation)
  | .deleting ids =>
    some ((s.deleteMany fun row => row.id ∈ ids).setStage i call.origin .reloading)
  | .creating newIps => some ((s.createMany newIps).setStage i call.origin (.created newIps))
  | .created _ => some (s.setStage i call.origin .reloading)
  | .creatingWildcard => some ((s.createMany [wildcard]).setStage i call.origin .reloading)
  | .deletingWildcard =>
    some ((s.deleteMany fun row => row.ip = wildcard).setStage i call.origin .reloading)
  | .reloading => some (s.setStage i call.origin (.loading s.findAll s.writes))
  | .loading _ _ | .returned | .rejected _ | .failed => none

/-- The statement of a call throws. A refresh goes on with the list in memory, and `initialize`
    allows all. -/
def statementFails (s : IpWhitelistState) (i : Nat) (call : WhitelistCall) :
    Option IpWhitelistState :=
  match call.stage with
  | .loading _ _ | .returned | .rejected _ | .failed => none
  | _ =>
    match call.origin with
    | .refresh => some (s.setStage i .refresh .returned)
    | .startup => some { s.setStage i .startup .failed with whitelist := [wildcard] }
    | .admin => some (s.setStage i .admin .failed)

/-- The end of `loadFromDatabase`. -/
def assign (s : IpWhitelistState) (i : Nat) (call : WhitelistCall) : Option IpWhitelistState :=
  match call.stage with
  | .loading records readAt =>
    some { s.setStage i call.origin .returned with
      whitelist := whitelistOf records
      lastCacheUpdate := s.now
      loadedAt := readAt }
  | _ => none

def step (s : IpWhitelistState) : IpWhitelistAction → Option IpWhitelistState
  | .request request =>
    match request.check with
    | .error error => some { s with calls := s.calls.add ⟨.admin, .rejected error⟩ }
    | .ok operation => some { s with calls := s.calls.add ⟨.admin, .called operation⟩ }
  | .access =>
    if cacheExpiry < s.now - s.lastCacheUpdate then
      some { s with calls := s.calls.add ⟨.refresh, .reloading⟩ }
    else some s
  | .tick time => some { s with now := s.now + time }
  | .statement i => (s.calls.get? i).bind (s.statement i)
  | .statementFails i => (s.calls.get? i).bind (s.statementFails i)
  | .assign i => (s.calls.get? i).bind (s.assign i)

end IpWhitelistState

end PetaCore
