import PetaCore.Core.Types
import PetaCore.ForStd.IpAddress
import PetaCore.ForStd.Url

/-!
# The addresses that client metadata is fetched from

Before the document of a client is fetched, the host of its URL is resolved, and each of its
addresses has to be outside the ranges that are not public; the document is then fetched from these
addresses only. The parser of URLs, the resolver and the exchange with one address are parameters.
-/

namespace PetaCore

namespace ClientMetadataNetwork

open IpAddress

/-! ## Ranges -/

def blockedIpv4Subnets : List (String × Nat) :=
  [("0.0.0.0", 8), ("10.0.0.0", 8), ("100.64.0.0", 10), ("127.0.0.0", 8), ("169.254.0.0", 16),
    ("172.16.0.0", 12), ("192.0.0.0", 24), ("192.0.2.0", 24), ("192.88.99.0", 24),
    ("192.168.0.0", 16), ("198.51.100.0", 24), ("203.0.113.0", 24), ("224.0.0.0", 4),
    ("240.0.0.0", 4)]

def fakeIpIpv4Subnets : List (String × Nat) := [("198.18.0.0", 15)]

def blockedIpv6Subnets : List (String × Nat) :=
  [("::", 128), ("::1", 128), ("::ffff:0:0", 96), ("64:ff9b::", 96), ("64:ff9b:1::", 48),
    ("100::", 64), ("2001::", 32), ("2001:2::", 48), ("2001:db8::", 32), ("2002::", 16),
    ("3fff::", 20), ("fc00::", 7), ("fe80::", 10), ("ff00::", 8)]

/-- A block list with the subnets, as `addSubnet` reads them. -/
def ipv4Ranges (subnets : List (String × Nat)) : List (BitVec 32 × Nat) :=
  subnets.filterMap fun subnet =>
    match read subnet.1 with
    | some (.ipv4 x) => some (x, subnet.2)
    | _ => none

def ipv6Ranges (subnets : List (String × Nat)) : List (BitVec 128 × Nat) :=
  subnets.filterMap fun subnet =>
    match read subnet.1 with
    | some (.ipv6 x) => some (x, subnet.2)
    | _ => none

def blockedIpv4Ranges : List (BitVec 32 × Nat) := ipv4Ranges blockedIpv4Subnets

def fakeIpRanges : List (BitVec 32 × Nat) := ipv4Ranges fakeIpIpv4Subnets

def blockedIpv6Ranges : List (BitVec 128 × Nat) := ipv6Ranges blockedIpv6Subnets

/-! ## Addresses -/

def unbracketIpv6Hostname (hostname : String) : String :=
  match hostname.toList with
  | '[' :: rest => if rest.getLast? = some ']' then String.ofList rest.dropLast else hostname
  | _ => hostname

def isFakeIpAddress (address : String) : Bool :=
  match read (unbracketIpv6Hostname address.toLower) with
  | some (.ipv4 x) => decide (Within fakeIpRanges x)
  | _ => false

/-- The numbers of an IPv4 address are in range whenever `isIP` takes the text for one, so that the
    check of the octets is left out. -/
def isPublicIpAddress (address : String) : Bool :=
  let normalizedAddress := unbracketIpv6Hostname address.toLower
  match read normalizedAddress with
  | some (.ipv4 x) =>
    if isFakeIpAddress normalizedAddress then false else !decide (Within blockedIpv4Ranges x)
  | some (.ipv6 x) => !decide (Within blockedIpv6Ranges x)
  | none => false

/-- `allowFakeIpClientMetadata`, with the variable of the environment. -/
def allowFakeIpClientMetadata (setting : Option String) : Bool :=
  setting.map (fun value => (trim value).toLower) ≠ some "false"

/-! ## The target of a URL -/

inductive ValidationResult where
  | valid (addresses : List String)
  | invalid (error : String)
deriving DecidableEq

/-- The error of the first address that is refused. -/
def addressError? (direct allowFakeIp : Bool) : List String → Option String
  | [] => none
  | address :: addresses =>
    if isPublicIpAddress address then addressError? direct allowFakeIp addresses
    else
      let fakeIpAddress := isFakeIpAddress address
      if fakeIpAddress && direct then
        some "Client metadata URL must not directly target 198.18.0.0/15 fake-IP addresses"
      else if fakeIpAddress && allowFakeIp then addressError? direct allowFakeIp addresses
      else if fakeIpAddress then
        some ("Client metadata URL resolved to 198.18.0.0/15 fake-IP addresses, but " ++
          "OAUTH_CLIENT_METADATA_ALLOW_FAKE_IP is disabled")
      else some "Client metadata URL must resolve only to public IP addresses"

def ipHostname (parsedUrl : Url) : String := unbracketIpv6Hostname parsedUrl.hostname.toLower

/-- Whether the host is an address itself. -/
def isDirect (parsedUrl : Url) : Bool := (read (ipHostname parsedUrl)).isSome

/-- The addresses of the host; `none` when `lookup` throws. -/
def hostAddresses (lookup : String → Option (List String)) (parsedUrl : Url) :
    Option (List String) :=
  if isDirect parsedUrl then some [ipHostname parsedUrl] else lookup parsedUrl.hostname.toLower

def isLocalhost (hostname : String) : Bool :=
  hostname = "localhost" || ".localhost".toList.isSuffixOf hostname.toList

/-- `validatePublicNetworkTarget`; `none` when it throws. -/
def validatePublicNetworkTarget (parse : String → Option Url)
    (lookup : String → Option (List String)) (setting : Option String) (url : String) :
    Option ValidationResult :=
  match parse url with
  | none => none
  | some parsedUrl =>
    if isLocalhost parsedUrl.hostname.toLower then
      some (.invalid "Client metadata URL must not target localhost")
    else
      match hostAddresses lookup parsedUrl with
      | none => none
      | some [] => some (.invalid "Client metadata URL host did not resolve")
      | some addresses =>
        match addressError? (isDirect parsedUrl) (allowFakeIpClientMetadata setting) addresses with
        | some error => some (.invalid error)
        | none => some (.valid addresses)

/-! ## The document -/

/-- `fetchPinnedMetadataDocument`, with the addresses that it has contacted. The exchange with one
    address gives a response or throws. -/
def fetchPinnedMetadataDocument {ρ : Type} (fromAddress : String → Except String ρ) :
    (addresses : List String) → (lastError : Option String) → List String × Except String ρ
  | [], lastError => ([], .error (lastError.getD "Client metadata URL host did not resolve"))
  | address :: addresses, _ =>
    match fromAddress address with
    | .ok response => ([address], .ok response)
    | .error error =>
      let rest := fetchPinnedMetadataDocument fromAddress addresses (some error)
      (address :: rest.1, rest.2)

end ClientMetadataNetwork

end PetaCore
