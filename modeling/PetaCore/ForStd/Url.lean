import Mathlib.Data.List.Basic

/-!
# URLs

The record of a URL, its text, and what is known of a parser of such texts: that it reads back the
text of a record, and that hosts of the web are in lower case.

- `IsParser.eq_of_href`: two `http` URLs with the same text but for the port are the same but for it
-/

/-- A URL record, with its host and its path as text. -/
structure Url where
  scheme : String
  username : String
  password : String
  host : Option String
  port : Option Nat
  path : String
  query : Option String
  fragment : Option String
deriving DecidableEq

namespace Url

def protocol (u : Url) : String := u.scheme ++ ":"

def hostname (u : Url) : String := u.host.getD ""

/-- The URL after `port` has been set to the empty text. -/
def clearPort (u : Url) : Url := { u with port := none }

/-- The user and the password, with the sign after them. -/
def credentials (u : Url) : String :=
  if u.username = "" ∧ u.password = "" then ""
  else if u.password = "" then u.username ++ "@"
  else u.username ++ ":" ++ u.password ++ "@"

/-- What stands between the scheme and the path. -/
def authority (u : Url) : String :=
  match u.host with
  | some host => "//" ++ u.credentials ++ host ++ (u.port.map fun port => s!":{port}").getD ""
  -- a path with an empty first segment would read as a host
  | none => if "//".toList.isPrefixOf u.path.toList then "/." else ""

/-- The text of a URL. -/
def href (u : Url) : String :=
  u.protocol ++ u.authority ++ u.path ++ (u.query.map ("?" ++ ·)).getD "" ++
    (u.fragment.map ("#" ++ ·)).getD ""

/-- What the parser of URLs is specified to do. -/
structure IsParser (parse : String → Option Url) : Prop where
  /-- an `http` URL that has been read, and the port of which has been cleared, is read back from
      its text -/
  reparse : ∀ text u, parse text = some u → u.scheme = "http" →
    parse u.clearPort.href = some u.clearPort
  /-- the host of an `http` URL has been turned to lower case -/
  lowerHost : ∀ text u, parse text = some u → u.scheme = "http" → u.hostname.toLower = u.hostname
  /-- an empty text is the URL of nothing -/
  empty : parse "" = none

section

variable {parse : String → Option Url} {text text' : String} {u v : Url}

theorem clearPort_eq_self {u : Url} : u.clearPort = u ↔ u.port = none := by
  constructor
  · intro h
    rw [← h]
    rfl
  · intro h
    cases u
    simp only at h
    rw [h]
    rfl

/-- Two `http` URLs with the same text but for the port are the same but for the port. -/
theorem IsParser.eq_of_href (hparse : IsParser parse) (hu : parse text = some u)
    (hv : parse text' = some v) (hschemeu : u.scheme = "http") (hschemev : v.scheme = "http")
    (h : u.clearPort.href = v.clearPort.href) : u.clearPort = v.clearPort := by
  have hreadu := hparse.reparse text u hu hschemeu
  have hreadv := hparse.reparse text' v hv hschemev
  rw [h, hreadv] at hreadu
  exact (Option.some.inj hreadu).symm

end

end Url
