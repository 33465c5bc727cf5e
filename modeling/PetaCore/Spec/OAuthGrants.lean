import PetaCore.Core.OAuthGrants
import PetaCore.ForStd.Run

/-!
# OAuth grants are single-use, bound and revocable

The claim of a code is one statement, so that of all the exchanges that have found a code unused
one goes on. What a request has read stays true of its record while others run: the client and the
user of a record never change, and its scopes stay within those of its code. A refresh puts another
access token into the record but leaves the mark of a revocation, and an access token that is no
longer in the record is not found.

Key results:
- `EventsOk`, `TablesOk`, `RequestOk`: what holds of the events, the tables and each request
- `Goes`, `goes_of_step`: what a request that goes on does
- `Ok.step`: each step keeps this
- `Closed.step`: after a revocation no later validation finds a token of the record
- `grants_bound_and_revocable`: the four properties, in every run
- `foreign_revoke_keeps_token`: a revocation in the name of another client leaves the record
-/

namespace PetaCore

open Run OAuth

namespace GrantState

/-! ## What the properties say -/

/-- The access token has been issued for the record. -/
def IssuedFor (events : List GrantEvent) (tokenId : Nat) (token : String) : Prop :=
  (∃ row, .issued row tokenId token ∈ events) ∨ .refreshed tokenId token ∈ events

/-- The request is one that the code was issued for. -/
def Meets (sha256 : String → String) (req : ExchangeRequest) (row : AuthorizationCode) : Prop :=
  req.code = some row.code ∧ req.credentials.clientId = some row.clientId ∧
    req.redirectUri = some row.redirectUri ∧ row.challengeMethod = some "S256" ∧
    ∃ codeVerifier, req.codeVerifier = some codeVerifier ∧
      row.codeChallenge = some (sha256 codeVerifier)

/-- The token speaks of the user and the client of the code, within the scopes of the code. -/
def Carries (decoded : TokenPayload) (row : AuthorizationCode) : Prop :=
  decoded.clientId = row.clientId ∧ decoded.userId = row.userId ∧ decoded.scopes ⊆ row.scopes

/-- The revocation is made for the client of the record, or for no client. -/
def Own (req : RevokeRequest) (record : OAuthToken) : Prop :=
  ∀ clientId, given req.credentials.clientId = some clientId → record.clientId = clientId

/-! ## The invariant -/

/-- What holds of the events. -/
structure EventsOk (sha256 : String → String) (events : List GrantEvent) (drawn : List String)
    (signed : List (String × TokenPayload)) (next : Nat) : Prop where
  created_drawn : ∀ row client, .created row client ∈ events → row.code ∈ drawn
  created_unique : ∀ row client row' client', .created row client ∈ events →
    .created row' client' ∈ events → row.code = row'.code → row = row'
  created_bound : ∀ row client, .created row client ∈ events →
    row.clientId = client.clientId ∧ row.scopes ⊆ client.scopes
  exchanged_bound : ∀ req row time, .exchanged req row time ∈ events →
    Meets sha256 req row ∧ time ≤ row.expiresAt ∧ ∃ client, .created row client ∈ events
  issued_exchanged : ∀ row tokenId token, .issued row tokenId token ∈ events →
    (∃ req time, .exchanged req row time ∈ events) ∧ tokenId < next
  issued_code : ∀ row tokenId token row' tokenId' token', .issued row tokenId token ∈ events →
    .issued row' tokenId' token' ∈ events → row.code = row'.code → tokenId = tokenId'
  issued_record : ∀ row tokenId token row' token', .issued row tokenId token ∈ events →
    .issued row' tokenId token' ∈ events → row = row'
  access_signed : ∀ tokenId token, IssuedFor events tokenId token →
    ∃ row first decoded, .issued row tokenId first ∈ events ∧
      signed.lookup token = some decoded ∧ Carries decoded row
  access_unique : ∀ tokenId tokenId' token, IssuedFor events tokenId token →
    IssuedFor events tokenId' token → tokenId = tokenId'
  accepted_bound : ∀ i token context, .accepted i token context ∈ events →
    ∃ row tokenId first, IssuedFor events tokenId token ∧ .issued row tokenId first ∈ events ∧
      context.userId = row.userId ∧ context.oauthClientId = row.clientId ∧
      context.oauthScopes ⊆ row.scopes

/-- A record is one of a code, with the scopes of the code or less. -/
def RecordOf (events : List GrantEvent) (tokenId : Nat) (clientId userId : String)
    (scopes : List String) : Prop :=
  ∃ row first, .issued row tokenId first ∈ events ∧ clientId = row.clientId ∧
    userId = row.userId ∧ scopes ⊆ row.scopes

/-- What holds of the tables. -/
structure TablesOk (events : List GrantEvent) (codes : List AuthorizationCode)
    (tokens : Table OAuthToken) : Prop where
  rows : ∀ row ∈ codes, ∃ client, .created { row with used := false } client ∈ events
  used : ∀ req row time, .exchanged req row time ∈ events →
    ∀ row' ∈ codes, row'.code = row.code → row'.used = true
  records : ∀ tokenId record, tokens.get? tokenId = some record →
    record.tokenId = tokenId ∧
      RecordOf events tokenId record.clientId record.userId record.scopes ∧
      IssuedFor events tokenId record.accessToken
  revoked : ∀ req record, .revoked req record ∈ events → Own req record →
    record.tokenId < tokens.next ∧
      ∀ current, tokens.get? record.tokenId = some current → current.revoked = true

/-- What holds of a request. -/
def RequestOk (sha256 : String → String) (events : List GrantEvent)
    (signed : List (String × TokenPayload)) (next : Nat) : GrantRequest → Prop
  | .authorize req (.validating client) => client.clientId = req.params.clientId
  | .authorize req (.creating client _) => client.clientId = req.params.clientId
  | .exchange req (.claiming _ row) =>
    Meets sha256 req row ∧ ∃ client, .created row client ∈ events
  | .exchange req (.creating _ row) => ∃ time, .exchanged req row time ∈ events
  | .refresh _ (.updating record newScopes) =>
    RecordOf events record.tokenId record.clientId record.userId newScopes
  | .revoke req (.updating record) => Own req record ∧ record.tokenId < next
  | .validate req (.finding decoded) => signed.lookup req.token = some decoded
  | .validate req (.readingUser decoded) =>
    signed.lookup req.token = some decoded ∧ ∃ tokenId, IssuedFor events tokenId req.token
  | _ => True

/-- The code of which a request is about to create the record. -/
def pendingRow? : GrantRequest → Option AuthorizationCode
  | .exchange _ (.creating _ row) => some row
  | _ => none

structure Ok (sha256 : String → String) (s : GrantState) : Prop where
  events : EventsOk sha256 s.events s.drawn s.signed s.tokens.next
  tables : TablesOk s.events s.codes s.tokens
  requests : ∀ i r, s.requests.get? i = some r →
    RequestOk sha256 s.events s.signed s.tokens.next r
  pending : ∀ i r row, s.requests.get? i = some r → pendingRow? r = some row →
    ∀ row' tokenId token, .issued row' tokenId token ∈ s.events → row'.code ≠ row.code
  pending_unique : ∀ i j r r' row row', s.requests.get? i = some r → s.requests.get? j = some r' →
    pendingRow? r = some row → pendingRow? r' = some row' → row.code = row'.code → i = j

/-! ## More events -/

section

variable {sha256 : String → String} {events : List GrantEvent} {e : GrantEvent}

variable {token : String}

variable {tokenId : Nat}

theorem issuedFor_snoc :
    IssuedFor (events ++ [e]) tokenId token ↔
      IssuedFor events tokenId token ∨ (∃ row, e = .issued row tokenId token) ∨
        e = .refreshed tokenId token := by
  simp only [IssuedFor, List.mem_append, List.mem_singleton]
  constructor
  · rintro (⟨row, hrow | hrow⟩ | hrow | hrow)
    · exact .inl (.inl ⟨row, hrow⟩)
    · exact .inr (.inl ⟨row, hrow.symm⟩)
    · exact .inl (.inr hrow)
    · exact .inr (.inr hrow.symm)
  · rintro ((⟨row, hrow⟩ | hrow) | ⟨row, rfl⟩ | rfl)
    · exact .inl ⟨row, .inl hrow⟩
    · exact .inr (.inl hrow)
    · exact .inl ⟨row, .inr rfl⟩
    · exact .inr (.inr rfl)

theorem IssuedFor.snoc (h : IssuedFor events tokenId token) :
    IssuedFor (events ++ [e]) tokenId token := issuedFor_snoc.mpr (.inl h)

theorem RecordOf.snoc {clientId userId : String} {scopes : List String}
    (h : RecordOf events tokenId clientId userId scopes) :
    RecordOf (events ++ [e]) tokenId clientId userId scopes := by
  obtain ⟨row, first, hissued, hrest⟩ := h
  exact ⟨row, first, List.mem_append_left _ hissued, hrest⟩

variable {signed : List (String × TokenPayload)}

/-- A token that has been signed is not signed again. -/
theorem lookup_snoc {token' : String}
    {decoded decoded' : TokenPayload} (h : signed.lookup token = some decoded) :
    (signed ++ [(token', decoded')]).lookup token = some decoded := by
  rw [List.lookup_append, h]
  rfl

theorem lookup_snoc_self (h : signed.lookup token = none) (decoded : TokenPayload) :
    (signed ++ [(token, decoded)]).lookup token = some decoded := by
  rw [List.lookup_append, h]
  simp

/-- What holds of a request goes on to hold when there are more events and signed tokens. -/
theorem RequestOk.mono {signed' : List (String × TokenPayload)} {next next' : Nat}
    {events' : List GrantEvent} (hevents : ∀ e ∈ events, e ∈ events')
    (hsigned : ∀ token decoded, signed.lookup token = some decoded →
      signed'.lookup token = some decoded)
    (hnext : next ≤ next') {r : GrantRequest} (h : RequestOk sha256 events signed next r) :
    RequestOk sha256 events' signed' next' r := by
  have hissued : ∀ tokenId token, IssuedFor events tokenId token →
      IssuedFor events' tokenId token := by
    rintro tokenId token (⟨row, hrow⟩ | hrow)
    · exact .inl ⟨row, hevents _ hrow⟩
    · exact .inr (hevents _ hrow)
  cases r with
  | authorize req stage => cases stage <;> exact h
  | exchange req stage =>
    cases stage with
    | claiming client row =>
      obtain ⟨hmeets, client', hcreated⟩ := h
      exact ⟨hmeets, client', hevents _ hcreated⟩
    | creating client row =>
      obtain ⟨time, hexchanged⟩ := h
      exact ⟨time, hevents _ hexchanged⟩
    | lookingUp | verifying _ | finding _ | answered _ | failed _ => trivial
  | refresh req stage =>
    cases stage with
    | updating record newScopes =>
      obtain ⟨row, first, hrow, hrest⟩ := h
      exact ⟨row, first, hevents _ hrow, hrest⟩
    | lookingUp | verifying | finding | answered _ _ | failed _ => trivial
  | revoke req stage =>
    cases stage with
    | updating record => exact ⟨h.1, Nat.lt_of_lt_of_le h.2 hnext⟩
    | lookingUp | verifying | findingRefresh | findingAccess | answered | failed _ => trivial
  | validate req stage =>
    cases stage with
    | finding decoded => exact hsigned _ _ h
    | readingUser decoded =>
      obtain ⟨hlookup, tokenId, hfor⟩ := h
      exact ⟨hsigned _ _ hlookup, tokenId, hissued _ _ hfor⟩
    | accepted _ | rejected _ => trivial

end

/-! ## The next event -/

section

variable (sha256 : String → String) (events : List GrantEvent) (drawn drawn' : List String)
  (signed signed' : List (String × TokenPayload)) (next next' : Nat)

/-- When an event may follow the others: random values and access tokens are new, and the rest is
    about what has happened. -/
def Allowed : GrantEvent → Prop
  | .created row client =>
    row.code ∈ drawn' ∧ row.code ∉ drawn ∧ row.clientId = client.clientId ∧
      row.scopes ⊆ client.scopes
  | .exchanged req row time =>
    Meets sha256 req row ∧ time ≤ row.expiresAt ∧ ∃ client, .created row client ∈ events
  | .issued row tokenId token =>
    (∃ req time, .exchanged req row time ∈ events) ∧
      (∀ row' tokenId' token', .issued row' tokenId' token' ∈ events → row'.code ≠ row.code) ∧
      tokenId = next ∧ next < next' ∧ signed.lookup token = none ∧
      ∃ decoded, signed'.lookup token = some decoded ∧ Carries decoded row
  | .refreshed tokenId token =>
    signed.lookup token = none ∧ ∃ row first decoded, .issued row tokenId first ∈ events ∧
      signed'.lookup token = some decoded ∧ Carries decoded row
  | .revoked _ _ => True
  | .accepted _ token context =>
    ∃ row tokenId first, IssuedFor events tokenId token ∧ .issued row tokenId first ∈ events ∧
      context.userId = row.userId ∧ context.oauthClientId = row.clientId ∧
      context.oauthScopes ⊆ row.scopes

end

theorem EventsOk.snoc {sha256 : String → String} {events : List GrantEvent}
    {drawn drawn' : List String} {signed signed' : List (String × TokenPayload)} {next next' : Nat}
    {e : GrantEvent} (h : EventsOk sha256 events drawn signed next)
    (hdrawn : ∀ x ∈ drawn, x ∈ drawn')
    (hsigned : ∀ token decoded, signed.lookup token = some decoded →
      signed'.lookup token = some decoded)
    (hnext : next ≤ next') (he : Allowed sha256 events drawn drawn' signed signed' next next' e) :
    EventsOk sha256 (events ++ [e]) drawn' signed' next' := by
  have hcases : ∀ x, x ∈ events ++ [e] → x ∈ events ∨ x = e := by
    intro x hx
    simpa using hx
  have hold : ∀ x ∈ events, x ∈ events ++ [e] := fun x hx => List.mem_append_left _ hx
  -- a token that has been issued is signed, so that it is not the one of a new event
  have hknown : ∀ tokenId token, IssuedFor events tokenId token → signed.lookup token ≠ none := by
    intro tokenId token hissued hnone
    obtain ⟨_, _, decoded, _, hlookup, _⟩ := h.access_signed tokenId token hissued
    rw [hnone] at hlookup
    cases hlookup
  have hnew : ∀ tokenId token, IssuedFor (events ++ [e]) tokenId token →
      IssuedFor events tokenId token ∨
        (signed.lookup token = none ∧ ((∃ row, e = .issued row tokenId token) ∨
          e = .refreshed tokenId token)) := by
    intro tokenId token hissued
    rcases issuedFor_snoc.mp hissued with hissued | ⟨row, rfl⟩ | rfl
    · exact .inl hissued
    · exact .inr ⟨he.2.2.2.2.1, .inl ⟨row, rfl⟩⟩
    · exact .inr ⟨he.1, .inr rfl⟩
  constructor
  case created_drawn =>
    intro row client hmem
    rcases hcases _ hmem with hin | rfl
    · exact hdrawn _ (h.created_drawn row client hin)
    · exact he.1
  case created_unique =>
    intro row client row' client' hmem hmem' hcode
    rcases hcases _ hmem with hin | rfl
    · rcases hcases _ hmem' with hin' | rfl
      · exact h.created_unique row client row' client' hin hin' hcode
      · exact absurd (hcode ▸ h.created_drawn row client hin) he.2.1
    · rcases hcases _ hmem' with hin' | heq
      · exact absurd (hcode ▸ h.created_drawn row' client' hin') he.2.1
      · cases heq
        rfl
  case created_bound =>
    intro row client hmem
    rcases hcases _ hmem with hin | rfl
    · exact h.created_bound row client hin
    · exact he.2.2
  case exchanged_bound =>
    intro req row time hmem
    rcases hcases _ hmem with hin | rfl
    · obtain ⟨hmeets, htime, client, hcreated⟩ := h.exchanged_bound req row time hin
      exact ⟨hmeets, htime, client, hold _ hcreated⟩
    · obtain ⟨hmeets, htime, client, hcreated⟩ := he
      exact ⟨hmeets, htime, client, hold _ hcreated⟩
  case issued_exchanged =>
    intro row tokenId token hmem
    rcases hcases _ hmem with hin | rfl
    · obtain ⟨⟨req, time, hexchanged⟩, hlt⟩ := h.issued_exchanged row tokenId token hin
      exact ⟨⟨req, time, hold _ hexchanged⟩, by omega⟩
    · obtain ⟨⟨req, time, hexchanged⟩, _, rfl, hlt, _⟩ := he
      exact ⟨⟨req, time, hold _ hexchanged⟩, hlt⟩
  case issued_code =>
    intro row tokenId token row' tokenId' token' hmem hmem' hcode
    rcases hcases _ hmem with hin | rfl
    · rcases hcases _ hmem' with hin' | rfl
      · exact h.issued_code row tokenId token row' tokenId' token' hin hin' hcode
      · exact absurd hcode (he.2.1 row tokenId token hin)
    · rcases hcases _ hmem' with hin' | heq
      · exact absurd hcode.symm (he.2.1 row' tokenId' token' hin')
      · cases heq
        rfl
  case issued_record =>
    intro row tokenId token row' token' hmem hmem'
    rcases hcases _ hmem with hin | rfl
    · rcases hcases _ hmem' with hin' | rfl
      · exact h.issued_record row tokenId token row' token' hin hin'
      · have hlt := (h.issued_exchanged row tokenId token hin).2
        have heq := he.2.2.1
        omega
    · rcases hcases _ hmem' with hin' | heq
      · have hlt := (h.issued_exchanged row' tokenId token' hin').2
        have heq := he.2.2.1
        omega
      · cases heq
        rfl
  case access_signed =>
    intro tokenId token hissued
    rcases hnew tokenId token hissued with hissued | ⟨_, ⟨row, rfl⟩ | rfl⟩
    · obtain ⟨row, first, decoded, hrow, hlookup, hcarries⟩ := h.access_signed tokenId token hissued
      exact ⟨row, first, decoded, hold _ hrow, hsigned _ _ hlookup, hcarries⟩
    · obtain ⟨_, _, _, _, _, decoded, hlookup, hcarries⟩ := he
      exact ⟨row, token, decoded, by simp, hlookup, hcarries⟩
    · obtain ⟨_, row, first, decoded, hrow, hlookup, hcarries⟩ := he
      exact ⟨row, first, decoded, hold _ hrow, hlookup, hcarries⟩
  case access_unique =>
    intro tokenId tokenId' token hissued hissued'
    rcases hnew tokenId token hissued with hissued | ⟨hnone, hevent⟩
    · rcases hnew tokenId' token hissued' with hissued' | ⟨hnone, _⟩
      · exact h.access_unique tokenId tokenId' token hissued hissued'
      · exact absurd hnone (hknown tokenId token hissued)
    · rcases hnew tokenId' token hissued' with hissued' | ⟨_, hevent'⟩
      · exact absurd hnone (hknown tokenId' token hissued')
      · rcases hevent with ⟨row, rfl⟩ | rfl
        · rcases hevent' with ⟨row', heq⟩ | heq
          · cases heq
            rfl
          · cases heq
        · rcases hevent' with ⟨row', heq⟩ | heq
          · cases heq
          · cases heq
            rfl
  case accepted_bound =>
    intro i token context hmem
    rcases hcases _ hmem with hin | rfl
    · obtain ⟨row, tokenId, first, hissued, hrow, hrest⟩ := h.accepted_bound i token context hin
      exact ⟨row, tokenId, first, hissued.snoc, hold _ hrow, hrest⟩
    · obtain ⟨row, tokenId, first, hissued, hrow, hrest⟩ := he
      exact ⟨row, tokenId, first, hissued.snoc, hold _ hrow, hrest⟩

/-! ## The tables -/

section

variable {events : List GrantEvent} {codes : List AuthorizationCode} {tokens : Table OAuthToken}

/-- An event is logged that the tables agree with. -/
theorem TablesOk.snoc {e : GrantEvent} (h : TablesOk events codes tokens)
    (hused : ∀ req row time, e = .exchanged req row time →
      ∀ row' ∈ codes, row'.code = row.code → row'.used = true)
    (hrevoked : ∀ req record, e = .revoked req record → Own req record →
      record.tokenId < tokens.next ∧
        ∀ current, tokens.get? record.tokenId = some current → current.revoked = true) :
    TablesOk (events ++ [e]) codes tokens := by
  have hcases : ∀ x, x ∈ events ++ [e] → x ∈ events ∨ x = e := by
    intro x hx
    simpa using hx
  constructor
  case rows =>
    intro row hrow
    obtain ⟨client, hcreated⟩ := h.rows row hrow
    exact ⟨client, List.mem_append_left _ hcreated⟩
  case used =>
    intro req row time hmem
    rcases hcases _ hmem with hin | heq
    · exact h.used req row time hin
    · exact hused req row time heq.symm
  case records =>
    intro tokenId record hrecord
    obtain ⟨hid, hof, hissued⟩ := h.records tokenId record hrecord
    exact ⟨hid, hof.snoc, hissued.snoc⟩
  case revoked =>
    intro req record hmem
    rcases hcases _ hmem with hin | heq
    · exact h.revoked req record hin
    · exact hrevoked req record heq.symm

/-- A row is added for a code that has been created and not exchanged. -/
theorem TablesOk.addCode {row : AuthorizationCode} {client : OAuthClient}
    (h : TablesOk events codes tokens)
    (hcreated : .created { row with used := false } client ∈ events)
    (hnew : ∀ req row' time, .exchanged req row' time ∈ events → row.code ≠ row'.code) :
    TablesOk events (codes ++ [row]) tokens := by
  have hcases : ∀ row', row' ∈ codes ++ [row] → row' ∈ codes ∨ row' = row := by
    intro row' hrow'
    simpa using hrow'
  constructor
  case rows =>
    intro row' hrow'
    rcases hcases row' hrow' with hin | rfl
    · exact h.rows row' hin
    · exact ⟨client, hcreated⟩
  case used =>
    intro req row' time hmem row'' hrow'' hcode
    rcases hcases row'' hrow'' with hin | rfl
    · exact h.used req row' time hmem row'' hin hcode
    · exact absurd hcode (hnew req row' time hmem)
  case records => exact h.records
  case revoked => exact h.revoked

/-- Some rows are marked as used. -/
theorem TablesOk.markUsed (h : TablesOk events codes tokens) (p : AuthorizationCode → Bool) :
    TablesOk events (codes.map fun row => if p row then { row with used := true } else row)
      tokens := by
  have hback : ∀ row' ∈ codes.map (fun row => if p row then { row with used := true } else row),
      ∃ row ∈ codes, { row' with used := false } = { row with used := false } ∧
        (row.used = true → row'.used = true) := by
    intro row' hrow'
    obtain ⟨row, hrow, rfl⟩ := List.mem_map.mp hrow'
    refine ⟨row, hrow, ?_⟩
    split
    · exact ⟨rfl, fun _ => rfl⟩
    · exact ⟨rfl, id⟩
  constructor
  case rows =>
    intro row' hrow'
    obtain ⟨row, hrow, hsame, _⟩ := hback row' hrow'
    rw [hsame]
    exact h.rows row hrow
  case used =>
    intro req row₀ time hmem row' hrow' hcode
    obtain ⟨row, hrow, hsame, hused⟩ := hback row' hrow'
    have hcode' : row'.code = row.code := by
      injection hsame
    exact hused (h.used req row₀ time hmem row hrow (hcode' ▸ hcode))
  case records => exact h.records
  case revoked => exact h.revoked

/-- A record is added. -/
theorem TablesOk.addRecord {record : OAuthToken} (h : TablesOk events codes tokens)
    (hid : record.tokenId = tokens.next)
    (hof : RecordOf events tokens.next record.clientId record.userId record.scopes)
    (hissued : IssuedFor events tokens.next record.accessToken) :
    TablesOk events codes (tokens.add record) := by
  constructor
  case rows => exact h.rows
  case used => exact h.used
  case records =>
    intro tokenId record' hrecord'
    rcases Table.get?_add_eq_some.mp hrecord' with ⟨rfl, rfl⟩ | hold
    · exact ⟨hid, hof, hissued⟩
    · exact h.records tokenId record' hold
  case revoked =>
    intro req record' hmem hown
    obtain ⟨hlt, hrevoked⟩ := h.revoked req record' hmem hown
    rw [Table.next_add]
    refine ⟨by omega, ?_⟩
    intro current hcurrent
    rcases Table.get?_add_eq_some.mp hcurrent with ⟨heq, _⟩ | hold
    · omega
    · exact hrevoked current hold

/-- A record is changed; if it was revoked it still is. -/
theorem TablesOk.putRecord {tokenId : Nat} {current record : OAuthToken}
    (h : TablesOk events codes tokens) (hcurrent : tokens.get? tokenId = some current)
    (hid : record.tokenId = tokenId)
    (hof : RecordOf events tokenId record.clientId record.userId record.scopes)
    (hissued : IssuedFor events tokenId record.accessToken)
    (hkept : current.revoked = true → record.revoked = true) :
    TablesOk events codes (tokens.put tokenId record) := by
  constructor
  case rows => exact h.rows
  case used => exact h.used
  case records =>
    intro tokenId' record' hrecord'
    rw [Table.get?_put hcurrent] at hrecord'
    split at hrecord'
    · next heq =>
      cases hrecord'
      rw [heq]
      exact ⟨hid, hof, hissued⟩
    · exact h.records tokenId' record' hrecord'
  case revoked =>
    intro req record' hmem hown
    obtain ⟨hlt, hrevoked⟩ := h.revoked req record' hmem hown
    rw [Table.next_put]
    refine ⟨hlt, ?_⟩
    intro current' hcurrent'
    rw [Table.get?_put hcurrent] at hcurrent'
    split at hcurrent'
    · next heq =>
      cases hcurrent'
      exact hkept (hrevoked current (heq ▸ hcurrent))
    · exact hrevoked current' hcurrent'

/-- Codes and records are deleted. -/
theorem TablesOk.delete (h : TablesOk events codes tokens) (p : AuthorizationCode → Bool)
    (q : OAuthToken → Bool) : TablesOk events (codes.filter p) (tokens.eraseIf q) := by
  constructor
  case rows =>
    intro row hrow
    exact h.rows row (List.mem_filter.mp hrow).1
  case used =>
    intro req row time hmem row' hrow' hcode
    exact h.used req row time hmem row' (List.mem_filter.mp hrow').1 hcode
  case records =>
    intro tokenId record hrecord
    exact h.records tokenId record (Table.get?_of_get?_eraseIf hrecord)
  case revoked =>
    intro req record hmem hown
    obtain ⟨hlt, hrevoked⟩ := h.revoked req record hmem hown
    rw [Table.next_eraseIf]
    exact ⟨hlt, fun current hcurrent =>
      hrevoked current (Table.get?_of_get?_eraseIf hcurrent)⟩

end

/-! ## Requests -/

section

variable {sha256 : String → String} {s : GrantState}

variable {r : GrantRequest}

section

variable
    (hr : RequestOk sha256 s.events s.signed s.tokens.next r)
    (hfirst : ∀ row, pendingRow? r = some row →
      ∀ row' tokenId token, .issued row' tokenId token ∈ s.events → row'.code ≠ row.code)
    (honly : ∀ row, pendingRow? r = some row →
      ∀ j r' row', s.requests.get? j = some r' → pendingRow? r' = some row' →
        row'.code ≠ row.code)

include hr hfirst honly

/-- One request is as it is now in a place of its own, which may be that of a record to create. -/
theorem Ok.place (h : Ok sha256 s) {requests : Table GrantRequest} (i : Nat)
    (hback : ∀ {j r'}, requests.get? j = some r' → (j = i ∧ r' = r) ∨ s.requests.get? j = some r') :
    Ok sha256 { s with requests := requests } := by
  constructor
  case events => exact h.events
  case tables => exact h.tables
  case requests =>
    intro j r' hj
    rcases hback hj with ⟨_, rfl⟩ | hold
    · exact hr
    · exact h.requests j r' hold
  case pending =>
    intro j r' row' hj hrow'
    rcases hback hj with ⟨_, rfl⟩ | hold
    · exact hfirst row' hrow'
    · exact h.pending j r' row' hold hrow'
  case pending_unique =>
    intro j k r' r'' row' row'' hj hk hrow' hrow'' hcode
    rcases hback hj with ⟨hji, rfl⟩ | hold
    · rcases hback hk with ⟨hki, _⟩ | hold'
      · omega
      · exact absurd hcode.symm (honly row' hrow' k r'' row'' hold' hrow'')
    · rcases hback hk with ⟨_, rfl⟩ | hold'
      · exact absurd hcode (honly row'' hrow'' j r' row' hold hrow')
      · exact h.pending_unique j k r' r'' row' row'' hold hold' hrow' hrow'' hcode

/-- A request goes on, and may be about to create the record of a code. -/
theorem Ok.putPending (h : Ok sha256 s) {i : Nat} {r₀ : GrantRequest}
    (hr₀ : s.requests.get? i = some r₀) :
    Ok sha256 (s.put i r) := by
  refine h.place hr hfirst honly i (fun {j r'} hj => ?_)
  rw [Table.get?_put hr₀] at hj
  split at hj
  · next hji => exact .inl ⟨hji, (Option.some.inj hj).symm⟩
  · exact .inr hj

end

/-- A request goes on, and is not about to create a record. -/
theorem Ok.put (h : Ok sha256 s) {i : Nat} {r₀ : GrantRequest} (hr₀ : s.requests.get? i = some r₀)
    (hr : RequestOk sha256 s.events s.signed s.tokens.next r) (hrow : pendingRow? r = none) :
    Ok sha256 (s.put i r) :=
  h.putPending hr (by simp [hrow]) (by simp [hrow]) hr₀

/-- A request comes in. -/
theorem Ok.add (h : Ok sha256 s)
    (hr : RequestOk sha256 s.events s.signed s.tokens.next r) (hrow : pendingRow? r = none) :
    Ok sha256 (s.add r) := by
  refine h.place hr (by simp [hrow]) (by simp [hrow]) s.requests.next (fun {j r'} hj => ?_)
  rcases Table.get?_add_eq_some.mp hj with ⟨hnew, heq⟩ | hold
  · exact .inl ⟨hnew, heq.symm⟩
  · exact .inr hold

end

/-! ## The statements -/

@[simp] theorem events_log (s : GrantState) (e : GrantEvent) :
    (s.log e).events = s.events ++ [e] := rfl

section

variable {row : AuthorizationCode}

variable {sha256 : String → String} {s : GrantState}

/-- The tables and the events change, the requests stay as they are. -/
theorem Ok.extend {s' : GrantState} (h : Ok sha256 s) (hrequests : s'.requests = s.requests)
    (hevents : EventsOk sha256 s'.events s'.drawn s'.signed s'.tokens.next)
    (htables : TablesOk s'.events s'.codes s'.tokens) (hold : ∀ e ∈ s.events, e ∈ s'.events)
    (hsigned : ∀ token decoded, s.signed.lookup token = some decoded →
      s'.signed.lookup token = some decoded)
    (hnext : s.tokens.next ≤ s'.tokens.next)
    (hissued : ∀ row' tokenId token, .issued row' tokenId token ∈ s'.events →
      .issued row' tokenId token ∈ s.events ∨ ∀ i r row, s.requests.get? i = some r →
        pendingRow? r = some row → row'.code ≠ row.code) : Ok sha256 s' := by
  constructor
  case events => exact hevents
  case tables => exact htables
  case requests =>
    intro i r hr
    rw [hrequests] at hr
    exact (h.requests i r hr).mono hold hsigned hnext
  case pending =>
    intro i r row hr hrow row' tokenId token hmem
    rw [hrequests] at hr
    rcases hissued row' tokenId token hmem with hin | hne
    · exact h.pending i r row hr hrow row' tokenId token hin
    · exact hne i r row hr hrow
  case pending_unique =>
    rw [hrequests]
    exact h.pending_unique

/-- A random value is drawn. -/
theorem Ok.draw (h : Ok sha256 s) (x : String) : Ok sha256 { s with drawn := s.drawn ++ [x] } := by
  refine h.extend rfl ?_ h.tables (fun _ he => he) (fun _ _ hl => hl) (Nat.le_refl _)
    (fun _ _ _ hmem => .inl hmem)
  exact { h.events with
    created_drawn := fun row client hmem =>
      List.mem_append_left _ (h.events.created_drawn row client hmem) }

variable {client : OAuthClient}

/-- A code is created. -/
theorem Ok.createCode (h : Ok sha256 s) (hfresh : row.code ∉ s.drawn)
    (hunused : row.used = false) (hclient : row.clientId = client.clientId)
    (hscopes : row.scopes ⊆ client.scopes) :
    Ok sha256 ({ s with drawn := s.drawn ++ [row.code], codes := s.codes ++ [row] }.log
      (.created row client)) := by
  have hallowed : Allowed sha256 s.events s.drawn (s.drawn ++ [row.code]) s.signed s.signed
      s.tokens.next s.tokens.next (.created row client) := ⟨by simp, hfresh, hclient, hscopes⟩
  have hrow : { row with used := false } = row := by rw [← hunused]
  refine h.extend rfl ?_ ?_ (fun _ he => List.mem_append_left _ he) (fun _ _ hl => hl)
    (Nat.le_refl _) (fun row' tokenId token hmem => .inl (by simpa [log] using hmem))
  · exact h.events.snoc (fun _ hx => List.mem_append_left _ hx) (fun _ _ hl => hl)
      (Nat.le_refl _) hallowed
  · have hlogged : TablesOk (s.events ++ [.created row client]) s.codes s.tokens :=
      h.tables.snoc (by simp) (by simp)
    have hmem : GrantEvent.created { row with used := false } client ∈
        s.events ++ [.created row client] := by
      rw [hrow]
      simp
    apply hlogged.addCode hmem
    · intro req row' time hmem hcode
      -- an exchanged code has been drawn before
      have hin : GrantEvent.exchanged req row' time ∈ s.events := by simpa using hmem
      obtain ⟨_, _, client', hcreated⟩ := h.events.exchanged_bound req row' time hin
      exact hfresh (hcode ▸ h.events.created_drawn row' client' hcreated)

/-- A claim that changes no row, or too many. -/
theorem Ok.claimFails (h : Ok sha256 s) (row : AuthorizationCode) :
    Ok sha256 (s.claim row).1 :=
  h.extend rfl h.events (h.tables.markUsed _) (fun _ he => he) (fun _ _ hl => hl) (Nat.le_refl _)
    (fun _ _ _ hmem => .inl hmem)

/-- When a claim has changed a row, every row of the code is used, and was not used before by an
    exchange. -/
theorem claim_count (h : Ok sha256 s)
    (hcreated : .created row client ∈ s.events) (hcount : (s.claim row).2 = 1) :
    s.now ≤ row.expiresAt ∧ (∀ row' ∈ (s.claim row).1.codes, row'.code = row.code →
      row'.used = true) ∧
      ∀ req row' time, .exchanged req row' time ∈ s.events → row'.code ≠ row.code := by
  -- the row that was claimed
  have hne : s.codes.filter (s.claimable row) ≠ [] := by
    intro hnil
    simp [claim, hnil] at hcount
  obtain ⟨row₁, hrow₁⟩ := List.exists_mem_of_ne_nil _ hne
  obtain ⟨hmem₁, hclaimable⟩ := List.mem_filter.mp hrow₁
  simp only [claimable, Bool.and_eq_true, decide_eq_true_eq, Bool.not_eq_true'] at hclaimable
  obtain ⟨⟨hcode₁, hunused₁⟩, htime₁⟩ := hclaimable
  -- all rows of the code expire with it
  have hexpires : ∀ row' ∈ s.codes, row'.code = row.code → row'.expiresAt = row.expiresAt := by
    intro row' hrow' hcode
    obtain ⟨client', hcreated'⟩ := h.tables.rows row' hrow'
    have hsame := h.events.created_unique _ _ _ _ hcreated' hcreated hcode
    rw [← hsame]
  have htime : s.now ≤ row.expiresAt := hexpires row₁ hmem₁ hcode₁ ▸ htime₁
  refine ⟨htime, ?_, ?_⟩
  · intro row' hrow' hcode
    obtain ⟨row₂, hrow₂, rfl⟩ := List.mem_map.mp hrow'
    split at hcode
    · next hmark =>
      rw [if_pos hmark]
    · next hmark =>
      rw [if_neg hmark]
      have hlate := hexpires row₂ hrow₂ hcode
      simpa [claimable, hcode, hlate, htime] using hmark
  · intro req row' time hexchanged hcode
    have hused := h.tables.used req row' time hexchanged row₁ hmem₁ (hcode₁.trans hcode.symm)
    rw [hunused₁] at hused
    cases hused

/-- The code is claimed. -/
theorem Ok.claimed (h : Ok sha256 s) {req : ExchangeRequest}
    (hmeets : Meets sha256 req row) (hcreated : .created row client ∈ s.events)
    (hcount : (s.claim row).2 = 1) :
    Ok sha256 ((s.claim row).1.log (.exchanged req row s.now)) := by
  obtain ⟨htime, hused, hfirst⟩ := claim_count h hcreated hcount
  have hallowed : Allowed sha256 s.events s.drawn s.drawn s.signed s.signed s.tokens.next
      s.tokens.next (.exchanged req row s.now) := ⟨hmeets, htime, client, hcreated⟩
  refine h.extend rfl ?_ ?_ (fun _ he => List.mem_append_left _ he) (fun _ _ hl => hl)
    (Nat.le_refl _) (fun row' tokenId token hmem => .inl (by simpa [claim] using hmem))
  · exact h.events.snoc (fun _ hx => hx) (fun _ _ hl => hl) (Nat.le_refl _) hallowed
  · apply (h.tables.markUsed _).snoc
    · intro req' row' time heq
      cases heq
      exact hused
    · simp

variable {record : OAuthToken}

/-- The record of a code is created, which no other exchange is about to do. -/
theorem Ok.issueRecord (h : Ok sha256 s) {decoded : TokenPayload} (x : String)
    (hexchanged : ∃ req time, .exchanged req row time ∈ s.events)
    (hfirst : ∀ row' tokenId token, .issued row' tokenId token ∈ s.events → row'.code ≠ row.code)
    (hother : ∀ i r row', s.requests.get? i = some r → pendingRow? r = some row' →
      row.code ≠ row'.code) (hunsigned : s.signed.lookup record.accessToken = none)
    (hdecoded : Carries decoded row) (hid : record.tokenId = s.tokens.next)
    (hclient : record.clientId = row.clientId) (huser : record.userId = row.userId)
    (hscopes : record.scopes = row.scopes) :
    Ok sha256 ({ s with
      signed := s.signed ++ [(record.accessToken, decoded)]
      drawn := s.drawn ++ [x]
      tokens := s.tokens.add record }.log (.issued row record.tokenId record.accessToken)) := by
  have hsigned : ∀ token decoded', s.signed.lookup token = some decoded' →
      (s.signed ++ [(record.accessToken, decoded)]).lookup token = some decoded' :=
    fun _ _ hl => lookup_snoc hl
  have hnext : (s.tokens.add record).next = s.tokens.next + 1 := Table.next_add _ _
  have hallowed : Allowed sha256 s.events s.drawn (s.drawn ++ [x]) s.signed
      (s.signed ++ [(record.accessToken, decoded)]) s.tokens.next (s.tokens.add record).next
      (.issued row record.tokenId record.accessToken) :=
    ⟨hexchanged, hfirst, hid, by omega, hunsigned, decoded, lookup_snoc_self hunsigned decoded,
      hdecoded⟩
  refine h.extend rfl ?_ ?_ (fun _ he => List.mem_append_left _ he) hsigned ?_ ?_
  · exact h.events.snoc (fun _ hx => List.mem_append_left _ hx) hsigned
      (Nat.le_trans (Nat.le_succ _) (Nat.le_of_eq hnext.symm)) hallowed
  · have hmem : GrantEvent.issued row s.tokens.next record.accessToken ∈
        s.events ++ [.issued row record.tokenId record.accessToken] := by simp [hid]
    apply TablesOk.addRecord _ hid
    · exact ⟨row, record.accessToken, hmem, hclient, huser, by rw [hscopes]; exact fun _ hx => hx⟩
    · exact .inl ⟨row, hmem⟩
    · exact h.tables.snoc (by simp) (by simp)
  · show s.tokens.next ≤ (s.tokens.add record).next
    rw [hnext]
    exact Nat.le_succ _
  · intro row' tokenId token hmem
    rcases List.mem_append.mp hmem with hin | heq
    · exact .inl hin
    · cases List.mem_singleton.mp heq
      exact .inr hother

/-- A record gets another access token. -/
theorem Ok.refreshRecord (h : Ok sha256 s) (record : OAuthToken) (decoded : TokenPayload)
    {current : OAuthToken} {tokenId : Nat} {clientId userId : String}
    (hcurrent : s.tokens.get? tokenId = some current)
    (hof : RecordOf s.events tokenId clientId userId record.scopes)
    (hunsigned : s.signed.lookup record.accessToken = none)
    (hid : record.tokenId = current.tokenId) (hclient : record.clientId = current.clientId)
    (huser : record.userId = current.userId) (hrevoked : record.revoked = current.revoked)
    (hdclient : decoded.clientId = clientId) (hduser : decoded.userId = userId)
    (hdscopes : decoded.scopes = record.scopes) :
    Ok sha256 ({ s with
      signed := s.signed ++ [(record.accessToken, decoded)]
      tokens := s.tokens.put tokenId record }.log (.refreshed tokenId record.accessToken)) := by
  have hsigned : ∀ token decoded', s.signed.lookup token = some decoded' →
      (s.signed ++ [(record.accessToken, decoded)]).lookup token = some decoded' :=
    fun _ _ hl => lookup_snoc hl
  have hnext : (s.tokens.put tokenId record).next = s.tokens.next := Table.next_put _ _ _
  obtain ⟨hcid, ⟨row, first, hrow, hrclient, hruser, _⟩, _⟩ := h.tables.records tokenId current
    hcurrent
  obtain ⟨row', first', hrow', hclient', huser', hscopes'⟩ := hof
  obtain rfl := h.events.issued_record row tokenId first row' first' hrow hrow'
  have hcarries : Carries decoded row :=
    ⟨hdclient.trans hclient', hduser.trans huser', by rw [hdscopes]; exact hscopes'⟩
  have hallowed : Allowed sha256 s.events s.drawn s.drawn s.signed
      (s.signed ++ [(record.accessToken, decoded)]) s.tokens.next
      (s.tokens.put tokenId record).next (.refreshed tokenId record.accessToken) :=
    ⟨hunsigned, row, first, decoded, hrow, lookup_snoc_self hunsigned decoded, hcarries⟩
  refine h.extend rfl ?_ ?_ (fun _ he => List.mem_append_left _ he) hsigned (Nat.le_of_eq hnext.symm)
    (fun row' tokenId' token hmem => .inl (by simpa using hmem))
  · exact h.events.snoc (fun _ hx => hx) hsigned (Nat.le_of_eq hnext.symm) hallowed
  · apply TablesOk.putRecord _ hcurrent (hid.trans hcid)
    · exact ⟨row, first, List.mem_append_left _ hrow, hclient.trans hrclient, huser.trans hruser,
        hscopes'⟩
    · exact .inr (by simp)
    · intro hwas
      rw [hrevoked, hwas]
    · exact h.tables.snoc (by simp) (by simp)

/-- A record is revoked. -/
theorem Ok.revokeRecord (h : Ok sha256 s) {req : RevokeRequest} {current : OAuthToken}
    (hcurrent : s.tokens.get? record.tokenId = some current) (hlt : record.tokenId < s.tokens.next) :
    Ok sha256 ({ s with
      tokens := s.tokens.put record.tokenId { current with revoked := true } }.log
        (.revoked req record)) := by
  have hnext : (s.tokens.put record.tokenId { current with revoked := true }).next =
      s.tokens.next := Table.next_put _ _ _
  obtain ⟨hcid, hof, hissued⟩ := h.tables.records record.tokenId current hcurrent
  refine h.extend rfl ?_ ?_ (fun _ he => List.mem_append_left _ he) (fun _ _ hl => hl)
    (Nat.le_of_eq hnext.symm) (fun row' tokenId' token hmem => .inl (by simpa using hmem))
  · exact h.events.snoc (fun _ hx => hx) (fun _ _ hl => hl) (Nat.le_of_eq hnext.symm) trivial
  · apply TablesOk.snoc
    · exact h.tables.putRecord hcurrent hcid hof hissued (fun _ => rfl)
    · simp
    · intro req' record' heq _
      cases heq
      refine ⟨Nat.lt_of_lt_of_eq hlt hnext.symm, ?_⟩
      intro current' hcurrent'
      have hput : (s.tokens.put record.tokenId { current with revoked := true }).get?
          record.tokenId = some current' := hcurrent'
      rw [Table.get?_put hcurrent, if_pos rfl] at hput
      cases hput
      rfl

/-- A revocation returns that has found the record of another client. -/
theorem Ok.foreignRevoke (h : Ok sha256 s) {req : RevokeRequest}
    (hown : ¬Own req record) : Ok sha256 (s.log (.revoked req record)) := by
  refine h.extend rfl ?_ ?_ (fun _ he => List.mem_append_left _ he) (fun _ _ hl => hl)
    (Nat.le_refl _) (fun row' tokenId' token hmem => .inl (by simpa using hmem))
  · exact h.events.snoc (fun _ hx => hx) (fun _ _ hl => hl) (Nat.le_refl _) trivial
  · apply h.tables.snoc (by simp)
    intro req' record' heq hown'
    cases heq
    exact absurd hown' hown

/-- A token is accepted. -/
theorem Ok.accept (h : Ok sha256 s) {i : Nat} {token : String} {context : OAuthContext}
    {tokenId : Nat} {first : String} (hissued : IssuedFor s.events tokenId token)
    (hrow : .issued row tokenId first ∈ s.events) (huser : context.userId = row.userId)
    (hclient : context.oauthClientId = row.clientId) (hscopes : context.oauthScopes ⊆ row.scopes) :
    Ok sha256 (s.log (.accepted i token context)) := by
  refine h.extend rfl ?_ ?_ (fun _ he => List.mem_append_left _ he) (fun _ _ hl => hl)
    (Nat.le_refl _) (fun row' tokenId' token' hmem => .inl (by simpa using hmem))
  · exact h.events.snoc (fun _ hx => hx) (fun _ _ hl => hl) (Nat.le_refl _)
      ⟨row, tokenId, first, hissued, hrow, huser, hclient, hscopes⟩
  · exact h.tables.snoc (by simp) (by simp)

end

/-! ## The checks -/

theorem checkClient_eq_ok {rt : UrlRuntime} {params : AuthorizationParams}
    {found : Option OAuthClient} {client : OAuthClient}
    (h : checkClient rt params found = .ok client) : found = some client := by
  cases found with
  | none => cases h
  | some client' =>
    simp only [checkClient] at h
    split at h
    · cases h
    split at h
    · cases h
    split at h
    · cases h
    · cases h
      rfl

variable {now : Nat}

theorem grant_eq_ok {client : OAuthClient} {params : AuthorizationParams}
    {userId code publicUrl : String} {row : AuthorizationCode}
    (h : grant client params userId code publicUrl now = .ok row) :
    row.code = code ∧ row.used = false ∧ row.clientId = params.clientId ∧
      row.scopes ⊆ client.scopes := by
  simp only [grant] at h
  split at h
  · cases h
  · next hscopes =>
    split at h
    · cases h
    · cases h
      refine ⟨rfl, rfl, rfl, ?_⟩
      intro scope hscope
      simp only [isScopeSubset, Bool.not_eq_true', Bool.not_eq_false] at hscopes
      exact of_decide_eq_true (List.all_eq_true.mp hscopes scope hscope)

theorem checkCode_eq_ok {sha256 : String → String} {req : ExchangeRequest}
    {found : Option AuthorizationCode} {row : AuthorizationCode}
    (h : checkCode sha256 req now found = .ok row) :
    found = some row ∧ row.used = false ∧
      (req.code = some row.code → Meets sha256 req row) := by
  cases found with
  | none => cases h
  | some row' =>
    simp only [checkCode] at h
    split at h
    · cases h
    next hused =>
    split at h
    · cases h
    split at h
    · cases h
    next hclient =>
    split at h
    · cases h
    next hredirect =>
    split at h
    · next codeChallenge codeVerifier hchallenge hverifier =>
      split at h
      · cases h
      next hmethod =>
      split at h
      · cases h
      next hhash =>
      cases h
      have hsame : codeChallenge = sha256 codeVerifier := (not_not.mp hhash).symm
      refine ⟨rfl, by simpa using hused, ?_⟩
      intro hcode
      exact ⟨hcode, not_not.mp hclient, not_not.mp hredirect, not_not.mp hmethod, codeVerifier,
        (Option.filter_eq_some_iff.mp hverifier).1,
        hsame ▸ (Option.filter_eq_some_iff.mp hchallenge).1⟩
    · cases h

theorem checkRefresh_eq_ok {req : RefreshRequest} {found : Option OAuthToken}
    {record : OAuthToken} {newScopes : List String}
    (h : checkRefresh req now found = .ok (record, newScopes)) :
    found = some record ∧ newScopes ⊆ record.scopes := by
  cases found with
  | none => cases h
  | some record' =>
    simp only [checkRefresh] at h
    split at h
    · cases h
    split at h
    · cases h
    split at h
    · cases h
    split at h
    · cases h
      exact ⟨rfl, fun _ hx => hx⟩
    · split at h
      · cases h
      · next hscopes =>
        cases h
        refine ⟨rfl, ?_⟩
        intro scope hscope
        simp only [isScopeSubset, Bool.not_eq_true', Bool.not_eq_false] at hscopes
        exact of_decide_eq_true (List.all_eq_true.mp hscopes scope hscope)

theorem checkPayload_eq_ok {req : ValidateRequest} {found : Option TokenPayload}
    {decoded : TokenPayload} (h : checkPayload req now found = .ok decoded) :
    found = some decoded := by
  cases found with
  | none => cases h
  | some decoded' =>
    simp only [checkPayload] at h
    split at h
    · cases h
    split at h
    · cases h
    split at h
    · cases h
    · cases h
      rfl

theorem checkUser_eq_ok {found : Option OAuthUser} {user : OAuthUser}
    (h : checkUser now found = .ok user) : found = some user := by
  cases found with
  | none => cases h
  | some user' =>
    simp only [checkUser] at h
    split at h
    · cases h
    split at h
    · cases h
    · cases h
      rfl

/-! ## What a request does -/

/-- The client that an authorization has read and goes on with. -/
def heldClient? : GrantRequest → Option OAuthClient
  | .authorize _ (.validating client) | .authorize _ (.creating client _) => some client
  | _ => none

/-- A stage of which nothing has to be known. -/
def isIdle : GrantRequest → Bool
  | .authorize _ (.validating _) | .authorize _ (.creating _ _) => false
  | .exchange _ (.claiming _ _) | .exchange _ (.creating _ _) => false
  | .refresh _ (.updating _ _) => false
  | .revoke _ (.updating _) => false
  | .validate _ (.finding _) | .validate _ (.readingUser _) => false
  | _ => true

theorem isIdle_findingStage (req : RevokeRequest) :
    isIdle (.revoke req (findingStage req)) = true := by
  unfold findingStage
  split <;> rfl

/-- What a request that goes on does to the tables and the events, and where it stands then. -/
inductive Goes (sha256 : String → String) (s : GrantState) (i : Nat) :
    GrantRequest → GrantState → Prop
  | idle {r₀ r : GrantRequest} (hr₀ : pendingRow? r₀ = none) (hr : isIdle r = true) :
    Goes sha256 s i r₀ (s.put i r)
  | holds {req : AuthorizeRequest} {stage stage' : AuthorizeStage} {client : OAuthClient}
    (hheld : heldClient? (.authorize req stage') = some client)
    (hclient : heldClient? (.authorize req stage) = some client ∨
      client.clientId = req.params.clientId ∧ client ∈ s.clients) :
    Goes sha256 s i (.authorize req stage) (s.put i (.authorize req stage'))
  | draws {req : AuthorizeRequest} {stage : AuthorizeStage} {r : GrantRequest} (x : String)
    (hr : isIdle r = true) :
    Goes sha256 s i (.authorize req stage) ({ s with drawn := s.drawn ++ [x] }.put i r)
  | creates {req : AuthorizeRequest} {client : OAuthClient} {userId : String}
    {row : AuthorizationCode} {r : GrantRequest} (hfresh : row.code ∉ s.drawn)
    (hunused : row.used = false) (hclient : row.clientId = req.params.clientId)
    (hscopes : row.scopes ⊆ client.scopes) (hr : isIdle r = true) :
    Goes sha256 s i (.authorize req (.creating client userId))
      (({ s with drawn := s.drawn ++ [row.code], codes := s.codes ++ [row] }.log
        (.created row client)).put i r)
  | findsCode {req : ExchangeRequest} {client : OAuthClient} {row : AuthorizationCode}
    (hrow : row ∈ s.codes) (hunused : row.used = false) (hmeets : Meets sha256 req row) :
    Goes sha256 s i (.exchange req (.finding client)) (s.put i (.exchange req (.claiming client row)))
  | claimFails {req : ExchangeRequest} {client : OAuthClient} {row : AuthorizationCode}
    {r : GrantRequest} (hr : isIdle r = true) :
    Goes sha256 s i (.exchange req (.claiming client row)) ((s.claim row).1.put i r)
  | claims {req : ExchangeRequest} {client : OAuthClient} {row : AuthorizationCode}
    (hone : (s.claim row).2 = 1) :
    Goes sha256 s i (.exchange req (.claiming client row))
      (((s.claim row).1.log (.exchanged req row s.now)).put i (.exchange req (.creating client row)))
  | issues {req : ExchangeRequest} {client : OAuthClient} {row : AuthorizationCode}
    {record : OAuthToken} {decoded : TokenPayload} {r : GrantRequest} (x : String)
    (hunsigned : s.signed.lookup record.accessToken = none) (hdecoded : Carries decoded row)
    (hid : record.tokenId = s.tokens.next) (hclient : record.clientId = row.clientId)
    (huser : record.userId = row.userId) (hscopes : record.scopes = row.scopes)
    (hr : isIdle r = true) :
    Goes sha256 s i (.exchange req (.creating client row)) (({ s with
      signed := s.signed ++ [(record.accessToken, decoded)]
      drawn := s.drawn ++ [x]
      tokens := s.tokens.add record }.log (.issued row record.tokenId record.accessToken)).put i r)
  | findsRecord {req : RefreshRequest} {record : OAuthToken} {newScopes : List String} {tokenId : Nat}
    (hrecord : s.tokens.get? tokenId = some record) (hscopes : newScopes ⊆ record.scopes) :
    Goes sha256 s i (.refresh req .finding) (s.put i (.refresh req (.updating record newScopes)))
  | refreshes {req : RefreshRequest} {record current : OAuthToken} {newScopes : List String}
    {decoded : TokenPayload} {token : String} {r : GrantRequest} (expiresAt : Nat)
    (hcurrent : s.tokens.get? record.tokenId = some current)
    (hunsigned : s.signed.lookup token = none) (hclient : decoded.clientId = record.clientId)
    (huser : decoded.userId = record.userId) (hscopes : decoded.scopes = newScopes)
    (hr : isIdle r = true) :
    Goes sha256 s i (.refresh req (.updating record newScopes)) (({ s with
      signed := s.signed ++ [(token, decoded)]
      tokens := s.tokens.put record.tokenId { current with
        accessToken := token
        accessTokenExpiresAt := expiresAt
        scopes := newScopes } }.log (.refreshed record.tokenId token)).put i r)
  | found {req : RevokeRequest} {stage : RevokeStage} {record : OAuthToken} {tokenId : Nat}
    (hrecord : s.tokens.get? tokenId = some record) :
    Goes sha256 s i (.revoke req stage) (s.found i req record)
  | revokes {req : RevokeRequest} {record current : OAuthToken} {r : GrantRequest}
    (hcurrent : s.tokens.get? record.tokenId = some current) (hr : isIdle r = true) :
    Goes sha256 s i (.revoke req (.updating record)) (({ s with
      tokens := s.tokens.put record.tokenId { current with revoked := true } }.log
        (.revoked req record)).put i r)
  | readsUser {req : ValidateRequest} {decoded : TokenPayload} {record : OAuthToken}
    (hfound : s.findByAccessToken (some req.token) = some record) (hvalid : record.revoked = false) :
    Goes sha256 s i (.validate req (.finding decoded))
      (s.put i (.validate req (.readingUser decoded)))
  | accepts {req : ValidateRequest} {decoded : TokenPayload} {context : OAuthContext}
    {r : GrantRequest} (huser : context.userId = decoded.userId)
    (hclient : context.oauthClientId = decoded.clientId)
    (hscopes : context.oauthScopes = decoded.scopes) (hr : isIdle r = true) :
    Goes sha256 s i (.validate req (.readingUser decoded))
      ((s.log (.accepted i req.token context)).put i r)

section

variable {sha256 : String → String} {s s' : GrantState} {i : Nat} {draw : Draw}

theorem goes_of_authorizeNext {rt : UrlRuntime} {req : AuthorizeRequest} {stage : AuthorizeStage}
    (h : s.authorizeNext rt i req draw stage = some s') :
    Goes sha256 s i (.authorize req stage) s' := by
  cases stage with
  | lookingUp =>
    simp only [authorizeNext] at h
    split at h
    · cases h
    next hfind =>
    split at h
    · cases h
      exact .idle rfl rfl
    · next client hcheck =>
      simp only [mayFind, checkClient_eq_ok hcheck, Option.all_some, decide_eq_true_eq,
        Bool.not_eq_true', Bool.not_eq_false] at hfind
      have hclient := And.intro (Option.some.inj hfind.2) hfind.1
      split at h
      all_goals
        cases h
        exact .holds rfl (.inr hclient)
  | validating client =>
    simp only [authorizeNext] at h
    split at h
    · cases h
      exact .holds rfl (.inl rfl)
    · cases h
      exact .idle rfl rfl
  | creating client userId =>
    simp only [authorizeNext] at h
    split at h
    · cases h
    next hfresh =>
    split at h
    · cases h
      exact .draws draw.random rfl
    · next row hgrant =>
      obtain ⟨hcode, hunused, hclient, hscopes⟩ := grant_eq_ok hgrant
      cases h
      rw [← hcode] at hfresh ⊢
      exact .creates hfresh hunused hclient hscopes rfl
  | redirected _ | failed _ => cases h

theorem goes_of_exchangeNext {req : ExchangeRequest} {stage : ExchangeStage}
    (h : s.exchangeNext sha256 i req draw stage = some s') :
    Goes sha256 s i (.exchange req stage) s' := by
  cases stage with
  | lookingUp =>
    simp only [exchangeNext] at h
    split at h
    · cases h
    split at h
    · cases h
      exact .idle rfl rfl
    · split at h
      all_goals
        cases h
        exact .idle rfl rfl
  | verifying client =>
    simp only [exchangeNext] at h
    split at h
    · cases h
    split at h
    all_goals
      cases h
      exact .idle rfl rfl
  | finding client =>
    simp only [exchangeNext] at h
    split at h
    · cases h
      exact .idle rfl rfl
    · next row hcheck =>
      cases h
      obtain ⟨hfound, hunused, hmeets⟩ := checkCode_eq_ok hcheck
      have hcode : some row.code = req.code := by simpa using List.find?_some hfound
      exact .findsCode (List.mem_of_find?_eq_some hfound) hunused (hmeets hcode.symm)
  | claiming client row =>
    simp only [exchangeNext] at h
    split at h
    · cases h
      exact .claimFails rfl
    · next hcount =>
      cases h
      exact .claims (not_not.mp hcount)
  | creating client row =>
    simp only [exchangeNext] at h
    split at h
    · cases h
    next hfresh =>
    cases h
    simp only [Bool.or_eq_true, not_or, Option.not_isSome_iff_eq_none] at hfresh
    exact .issues draw.random hfresh.1 ⟨rfl, rfl, fun _ hx => hx⟩ rfl rfl rfl rfl rfl
  | answered _ | failed _ => cases h

theorem goes_of_refreshNext {req : RefreshRequest} {stage : RefreshStage}
    (h : s.refreshNext i req draw stage = some s') : Goes sha256 s i (.refresh req stage) s' := by
  cases stage with
  | lookingUp =>
    simp only [refreshNext] at h
    split at h
    · cases h
    split at h
    · cases h
      exact .idle rfl rfl
    · split at h
      all_goals
        cases h
        exact .idle rfl rfl
  | verifying =>
    simp only [refreshNext] at h
    split at h
    · cases h
    split at h
    all_goals
      cases h
      exact .idle rfl rfl
  | finding =>
    simp only [refreshNext] at h
    split at h
    · cases h
      exact .idle rfl rfl
    · next record newScopes hcheck =>
      cases h
      obtain ⟨hfound, hscopes⟩ := checkRefresh_eq_ok hcheck
      obtain ⟨tokenId, hrecord, _⟩ := Table.get?_of_find? hfound
      exact .findsRecord hrecord hscopes
  | updating record newScopes =>
    simp only [refreshNext] at h
    split at h
    · cases h
    next hfresh =>
    split at h
    · cases h
      exact .idle rfl rfl
    · next current hcurrent =>
      cases h
      exact .refreshes _ hcurrent (Option.not_isSome_iff_eq_none.mp hfresh) rfl rfl rfl rfl
  | answered _ _ | failed _ => cases h

theorem goes_of_revokeNext {req : RevokeRequest} {stage : RevokeStage}
    (h : s.revokeNext i req draw stage = some s') : Goes sha256 s i (.revoke req stage) s' := by
  cases stage with
  | lookingUp =>
    simp only [revokeNext] at h
    split at h
    · cases h
    split at h
    · cases h
      exact .idle rfl rfl
    split at h
    · cases h
      exact .idle rfl (isIdle_findingStage req)
    split at h
    all_goals
      cases h
      exact .idle rfl rfl
  | verifying =>
    simp only [revokeNext] at h
    split at h
    · cases h
    split at h
    · cases h
      exact .idle rfl (isIdle_findingStage req)
    · cases h
      exact .idle rfl rfl
  | findingRefresh =>
    simp only [revokeNext] at h
    split at h
    · next record hfound =>
      cases h
      obtain ⟨tokenId, hrecord, _⟩ := Table.get?_of_find? hfound
      exact .found hrecord
    · split at h
      all_goals
        cases h
        exact .idle rfl rfl
  | findingAccess =>
    simp only [revokeNext] at h
    split at h
    · next record hfound =>
      cases h
      obtain ⟨tokenId, hrecord, _⟩ := Table.get?_of_find? hfound
      exact .found hrecord
    · cases h
      exact .idle rfl rfl
  | updating record =>
    simp only [revokeNext] at h
    split at h
    · cases h
      exact .idle rfl rfl
    · next current hcurrent =>
      cases h
      exact .revokes hcurrent rfl
  | answered | failed _ => cases h

theorem goes_of_validateNext {req : ValidateRequest} {stage : ValidateStage}
    (h : s.validateNext i req stage = some s') : Goes sha256 s i (.validate req stage) s' := by
  cases stage with
  | finding decoded =>
    simp only [validateNext] at h
    split at h
    · next hvalid =>
      cases h
      cases hfound : s.findByAccessToken (some req.token) with
      | none =>
        rw [hfound] at hvalid
        cases hvalid
      | some record =>
        simp only [hfound, OAuth.validate, Bool.and_eq_true, Bool.not_eq_true'] at hvalid
        exact .readsUser hfound hvalid.1.1
    · cases h
      exact .idle rfl rfl
  | readingUser decoded =>
    simp only [validateNext] at h
    split at h
    · cases h
      exact .idle rfl rfl
    · next user huser =>
      cases h
      have hfound := checkUser_eq_ok huser
      exact .accepts (by simpa using List.find?_some hfound) rfl rfl rfl
  | accepted _ | rejected _ => cases h

theorem goes_of_step {rt : UrlRuntime} (h : s.step rt sha256 (.next i draw) = some s') :
    ∃ r, s.requests.get? i = some r ∧ Goes sha256 s i r s' := by
  obtain ⟨r, hr, hnext⟩ := Option.bind_eq_some_iff.mp h
  cases r with
  | authorize req stage => exact ⟨_, hr, goes_of_authorizeNext hnext⟩
  | exchange req stage => exact ⟨_, hr, goes_of_exchangeNext hnext⟩
  | refresh req stage => exact ⟨_, hr, goes_of_refreshNext hnext⟩
  | revoke req stage => exact ⟨_, hr, goes_of_revokeNext hnext⟩
  | validate req stage => exact ⟨_, hr, goes_of_validateNext hnext⟩

end

/-! ## Each step keeps the invariant -/

section

variable {sha256 : String → String} {s s' : GrantState} {i : Nat}

variable {r : GrantRequest}

theorem Ok.exchanged_of_pending (h : Ok sha256 s) {row : AuthorizationCode}
    (hr : s.requests.get? i = some r) (hrow : pendingRow? r = some row) :
    ∃ req time, .exchanged req row time ∈ s.events := by
  have hreq := h.requests i r hr
  unfold pendingRow? at hrow
  split at hrow
  · next req client row' =>
    cases hrow
    obtain ⟨time, hexchanged⟩ := hreq
    exact ⟨req, time, hexchanged⟩
  · cases hrow

theorem requestOk_of_isIdle {events : List GrantEvent} {signed : List (String × TokenPayload)}
    {next : Nat} (hr : isIdle r = true) :
    RequestOk sha256 events signed next r := by
  unfold RequestOk
  split <;> trivial

theorem pendingRow?_of_isIdle (hr : isIdle r = true) : pendingRow? r = none := by
  unfold pendingRow?
  split
  · cases hr
  · rfl

/-- A request goes on, and nothing has to be known of it. -/
theorem Ok.putIdle (h : Ok sha256 s) {r₀ : GrantRequest} (hr₀ : s.requests.get? i = some r₀)
    (hr : isIdle r = true) : Ok sha256 (s.put i r) :=
  h.put hr₀ (requestOk_of_isIdle hr) (pendingRow?_of_isIdle hr)

theorem requestOk_of_heldClient {events : List GrantEvent}
    {signed : List (String × TokenPayload)} {next : Nat} {req : AuthorizeRequest}
    {stage : AuthorizeStage} {client : OAuthClient}
    (hheld : heldClient? (.authorize req stage) = some client) :
    RequestOk sha256 events signed next (.authorize req stage) ↔
      client.clientId = req.params.clientId := by
  cases stage with
  | validating _ | creating _ _ =>
    cases hheld
    rfl
  | lookingUp | redirected _ | failed _ => cases hheld

theorem Ok.found (h : Ok sha256 s) {req : RevokeRequest} {stage : RevokeStage}
    {record : OAuthToken} (hr : s.requests.get? i = some (.revoke req stage))
    (hlt : record.tokenId < s.tokens.next) : Ok sha256 (s.found i req record) := by
  unfold GrantState.found
  split
  · next hforeign =>
    have hown : ¬Own req record := by
      intro hown
      obtain ⟨clientId, hclientId, hne⟩ := (Option.any_eq_true _ _).mp hforeign
      exact (of_decide_eq_true hne) (hown clientId hclientId)
    exact (h.foreignRevoke hown).put hr trivial rfl
  · next hforeign =>
    refine h.put hr ⟨?_, hlt⟩ rfl
    intro clientId hclientId
    simpa [hclientId] using hforeign

theorem Ok.goes (h : Ok sha256 s) (hr : s.requests.get? i = some r)
    (hgoes : Goes sha256 s i r s') : Ok sha256 s' := by
  have hreq := h.requests i r hr
  cases hgoes with
  | idle _ hidle => exact h.putIdle hr hidle
  | holds hheld hclient =>
    apply h.put hr ((requestOk_of_heldClient hheld).mpr ?_) rfl
    rcases hclient with hclient | hclient
    · exact (requestOk_of_heldClient hclient).mp hreq
    · exact hclient.1
  | draws x hidle => exact (h.draw x).putIdle hr hidle
  | creates hfresh hunused hclient hscopes hidle =>
    exact (h.createCode hfresh hunused (hclient.trans hreq.symm) hscopes).putIdle hr hidle
  | @findsCode req client row hmem hunused hmeets =>
    obtain ⟨client', hcreated⟩ := h.tables.rows row hmem
    have hrow : { row with used := false } = row := by rw [← hunused]
    exact h.put hr ⟨hmeets, client', hrow ▸ hcreated⟩ rfl
  | claimFails hidle => exact (h.claimFails _).putIdle hr hidle
  | @claims req client row hone =>
    obtain ⟨hmeets, client', hcreated⟩ := hreq
    obtain ⟨_, _, hfirst⟩ := claim_count h hcreated hone
    refine Ok.putPending (r := .exchange req (.creating client row))
      ⟨s.now, by simp⟩ ?_ ?_ (h.claimed hmeets hcreated hone) hr
    · rintro _ ⟨⟩ row' tokenId token hmem
      have hin : GrantEvent.issued row' tokenId token ∈ s.events := by simpa [claim] using hmem
      obtain ⟨⟨req', time, hexchanged⟩, _⟩ := h.events.issued_exchanged row' tokenId token hin
      exact hfirst req' row' time hexchanged
    · rintro _ ⟨⟩ j r' row' hj hrow'
      obtain ⟨req', time, hexchanged⟩ := h.exchanged_of_pending hj hrow'
      exact hfirst req' row' time hexchanged
  | @issues req client row record decoded r x hunsigned hdecoded hid hclient huser hscopes hidle =>
    obtain ⟨time, hexchanged⟩ := hreq
    -- the request is no longer about to create the record when this has happened
    refine Ok.issueRecord (h.putIdle hr hidle) x ⟨req, time, hexchanged⟩
      (h.pending i _ row hr rfl) ?_ hunsigned hdecoded hid hclient huser hscopes
    intro j r' row' hj hrow' hcode
    rw [GrantState.put, Table.get?_put hr] at hj
    split at hj
    · cases hj
      rw [pendingRow?_of_isIdle hidle] at hrow'
      cases hrow'
    · next hji => exact hji (h.pending_unique j i r' _ row' row hj hr hrow' rfl hcode.symm)
  | findsRecord hrecord hscopes =>
    obtain ⟨hid, ⟨row, first, hissued, hclient, huser, hsub⟩, _⟩ := h.tables.records _ _ hrecord
    exact h.put hr ⟨row, first, hid ▸ hissued, hclient, huser, fun _ hx => hsub (hscopes hx)⟩ rfl
  | @refreshes req record current newScopes decoded token r expiresAt hcurrent hunsigned hclient
      huser hscopes hidle =>
    have hrefreshed := h.refreshRecord
      { current with
        accessToken := token
        accessTokenExpiresAt := expiresAt
        scopes := newScopes } decoded hcurrent hreq hunsigned rfl rfl rfl rfl hclient huser hscopes
    exact hrefreshed.putIdle hr hidle
  | found hrecord =>
    apply h.found hr
    rw [(h.tables.records _ _ hrecord).1]
    exact Table.lt_next_of_get? hrecord
  | revokes hcurrent hidle => exact (h.revokeRecord hcurrent hreq.2).putIdle hr hidle
  | @readsUser req decoded record hfound =>
    obtain ⟨tokenId, hrecord, htoken⟩ := Table.get?_of_find? hfound
    have hissued := (h.tables.records tokenId record hrecord).2.2
    rw [Option.some.inj (of_decide_eq_true htoken)] at hissued
    exact h.put hr ⟨hreq, tokenId, hissued⟩ rfl
  | @accepts req decoded context r huser hclient hscopes hidle =>
    obtain ⟨hlookup, tokenId, hissued⟩ := hreq
    obtain ⟨row, first, decoded', hrow, hlookup', hcarries⟩ :=
      h.events.access_signed tokenId req.token hissued
    rw [hlookup] at hlookup'
    cases hlookup'
    have haccept := h.accept (i := i) hissued hrow (huser.trans hcarries.2.1)
      (hclient.trans hcarries.1) (hscopes ▸ hcarries.2.2)
    exact haccept.putIdle hr hidle

theorem Ok.step (h : Ok sha256 s) {rt : UrlRuntime} {a : GrantAction}
    (hstep : s.step rt sha256 a = some s') : Ok sha256 s' := by
  cases a with
  | tick _ | setClients _ | setUsers _ =>
    cases hstep
    exact ⟨h.events, h.tables, h.requests, h.pending, h.pending_unique⟩
  | deleteClient clientId =>
    cases hstep
    have hnext : (s.tokens.eraseIf fun record => record.clientId = clientId).next =
        s.tokens.next := Table.next_eraseIf _ _
    refine h.extend rfl ?_ (h.tables.delete _ _) (fun _ he => he) (fun _ _ hl => hl)
      (Nat.le_of_eq hnext.symm) (fun _ _ _ hmem => .inl hmem)
    show EventsOk sha256 s.events s.drawn s.signed (s.tokens.eraseIf _).next
    rw [hnext]
    exact h.events
  | authorize req =>
    cases hstep
    exact h.add trivial rfl
  | exchange req =>
    cases hstep
    unfold exchangeStart
    split
    · exact h.add trivial rfl
    · split
      all_goals exact h.add trivial rfl
  | refresh req =>
    cases hstep
    unfold refreshStart
    split
    · exact h.add trivial rfl
    · split
      all_goals exact h.add trivial rfl
  | revoke req =>
    cases hstep
    unfold revokeStart
    split
    · exact h.add trivial rfl
    · split
      · exact h.add (requestOk_of_isIdle (isIdle_findingStage req)) rfl
      · exact h.add trivial rfl
  | validate req =>
    cases hstep
    unfold validateStart
    split
    · exact h.add trivial rfl
    · next decoded hcheck =>
      have hverified := checkPayload_eq_ok hcheck
      exact h.add (Option.filter_eq_some_iff.mp hverified).1 rfl
  | next i draw =>
    obtain ⟨r, hr, hgoes⟩ := goes_of_step hstep
    exact h.goes hr hgoes

end

theorem ok_init (sha256 : String → String) (clients : List OAuthClient) (users : List OAuthUser)
    (now : Nat) : Ok sha256 (init clients users now) := by
  constructor
  case events => constructor <;> simp [init, IssuedFor]
  case tables => constructor <;> simp [init]
  all_goals simp [init]

/-! ## After a revocation -/

/-- A code has been created for the client as it had been read, or is about to be. -/
def Known (s : GrantState) (client : OAuthClient) : Prop :=
  (∃ i r, s.requests.get? i = some r ∧ heldClient? r = some client) ∨
    ∃ row, .created row client ∈ s.events

/-- What a step leaves of the state before: a revoked record stays revoked, an access token that was
    signed is not issued again, and only a validation that was under way is accepted. -/
structure Later (s s' : GrantState) : Prop where
  count : s.requests.next ≤ s'.requests.next
  next : s.tokens.next ≤ s'.tokens.next
  revoked : ∀ tokenId < s.tokens.next,
    (∀ record, s.tokens.get? tokenId = some record → record.revoked = true) →
    ∀ record, s'.tokens.get? tokenId = some record → record.revoked = true
  issued : ∀ tokenId token, s.signed.lookup token ≠ none → IssuedFor s'.events tokenId token →
    IssuedFor s.events tokenId token
  accepted : ∀ i token context, .accepted i token context ∈ s'.events →
    .accepted i token context ∈ s.events ∨ ∃ req decoded, req.token = token ∧
      s.requests.get? i = some (.validate req (.readingUser decoded))
  reading : ∀ i req decoded, s'.requests.get? i = some (.validate req (.readingUser decoded)) →
    s.requests.get? i = some (.validate req (.readingUser decoded)) ∨
      ∃ record, s.findByAccessToken (some req.token) = some record ∧ record.revoked = false ∧
        s.requests.get? i = some (.validate req (.finding decoded))
  known : ∀ client, Known s' client → Known s client ∨ client ∈ s.clients

/-- An event of a step of `s` other than an acceptance: an access token of it is newly signed, and
    the client of it had been read. -/
def Fresh (s : GrantState) : GrantEvent → Prop
  | .created _ client => Known s client
  | .issued _ _ token | .refreshed _ token => s.signed.lookup token = none
  | .exchanged .. | .revoked .. => True
  | .accepted .. => False

/-- A request that neither reads a user nor goes on with a client. -/
def isPlain (r : GrantRequest) : Bool :=
  match r with
  | .authorize _ (.validating _) | .authorize _ (.creating _ _) => false
  | .validate _ (.readingUser _) => false
  | _ => true

section

variable {sha256 : String → String}

variable {s s' : GrantState} {i : Nat}

/-- The requests stay as they are. -/
theorem Later.extend (hrequests : s'.requests = s.requests)
    (hnext : s.tokens.next ≤ s'.tokens.next)
    (hrevoked : ∀ tokenId < s.tokens.next,
      (∀ record, s.tokens.get? tokenId = some record → record.revoked = true) →
      ∀ record, s'.tokens.get? tokenId = some record → record.revoked = true)
    (hevents : ∀ e ∈ s'.events, e ∈ s.events ∨ Fresh s e) : Later s s' := by
  constructor
  case count => exact Nat.le_of_eq (by rw [hrequests])
  case next => exact hnext
  case revoked => exact hrevoked
  case issued =>
    rintro tokenId token hsigned (⟨row, hmem⟩ | hmem)
    · rcases hevents _ hmem with hin | hunsigned
      · exact .inl ⟨row, hin⟩
      · exact absurd hunsigned hsigned
    · rcases hevents _ hmem with hin | hunsigned
      · exact .inr hin
      · exact absurd hunsigned hsigned
  case accepted =>
    intro i token context hmem
    rcases hevents _ hmem with hin | hfresh
    · exact .inl hin
    · exact hfresh.elim
  case reading =>
    rw [hrequests]
    exact fun _ _ _ h => .inl h
  case known =>
    rintro client (⟨i, r, hr, hheld⟩ | ⟨row, hmem⟩)
    · rw [hrequests] at hr
      exact .inl (.inl ⟨i, r, hr, hheld⟩)
    · rcases hevents _ hmem with hin | hknown
      · exact .inl (.inr ⟨row, hin⟩)
      · exact .inl hknown

theorem Later.refl (s : GrantState) : Later s s :=
  .extend rfl (Nat.le_refl _) (fun _ _ h => h) fun _ he => .inl he

variable {e : GrantEvent}

theorem fresh_of_append (hevents : s'.events = s.events ++ [e]) (he : Fresh s e) :
    ∀ x ∈ s'.events, x ∈ s.events ∨ Fresh s x := by
  intro x hx
  rw [hevents, List.mem_append, List.mem_singleton] at hx
  rcases hx with hin | rfl
  · exact .inl hin
  · exact .inr he

/-- The records stay as they are, and at most one event is logged. -/
theorem Later.log (htokens : s'.tokens = s.tokens)
    (hrequests : s'.requests = s.requests) (hevents : s'.events = s.events ++ [e])
    (he : Fresh s e) : Later s s' := by
  refine .extend hrequests (Nat.le_of_eq (by rw [htokens])) ?_ ?_
  · rw [htokens]
    exact fun _ _ h => h
  · exact fresh_of_append hevents he

variable {record : OAuthToken}

/-- A record is added. -/
theorem Later.addRecord (hrequests : s'.requests = s.requests)
    (htokens : s'.tokens = s.tokens.add record) (hevents : s'.events = s.events ++ [e])
    (he : Fresh s e) : Later s s' := by
  refine .extend hrequests ?_ ?_ ?_
  · rw [htokens, Table.next_add]
    exact Nat.le_succ _
  · intro tokenId hlt hrevoked record' hrecord'
    rw [htokens] at hrecord'
    rcases Table.get?_add_eq_some.mp hrecord' with ⟨heq, _⟩ | hold
    · omega
    · exact hrevoked record' hold
  · exact fresh_of_append hevents he

/-- A record is changed; if it was revoked it still is. -/
theorem Later.putRecord {current : OAuthToken} {tokenId : Nat}
    (hcurrent : s.tokens.get? tokenId = some current)
    (hkept : current.revoked = true → record.revoked = true) (hrequests : s'.requests = s.requests)
    (htokens : s'.tokens = s.tokens.put tokenId record) (hevents : s'.events = s.events ++ [e])
    (he : Fresh s e) : Later s s' := by
  refine .extend hrequests ?_ ?_ ?_
  · exact Nat.le_of_eq (by rw [htokens, Table.next_put])
  · intro tokenId' _ hrevoked record' hrecord'
    rw [htokens, Table.get?_put hcurrent] at hrecord'
    split at hrecord'
    · next heq =>
      cases hrecord'
      exact hkept (hrevoked current (heq ▸ hcurrent))
    · exact hrevoked record' hrecord'
  · exact fresh_of_append hevents he

variable {r : GrantRequest}

theorem isPlain_reading (hr : isPlain r = true) (req : ValidateRequest)
    (decoded : TokenPayload) : r ≠ .validate req (.readingUser decoded) := by
  rintro rfl
  cases hr

theorem heldClient?_of_isPlain (hr : isPlain r = true) :
    heldClient? r = none := by
  unfold heldClient?
  split
  · cases hr
  · cases hr
  · rfl

variable {r₀ : GrantRequest}

/-- A request goes on, and is a plain one. -/
theorem Later.put (h : Later s s') (hr₀ : s'.requests.get? i = some r₀)
    (hr : isPlain r = true) : Later s (s'.put i r) := by
  refine ⟨?_, h.next, h.revoked, h.issued, h.accepted, ?_, ?_⟩
  · show s.requests.next ≤ (s'.requests.put i r).next
    rw [Table.next_put]
    exact h.count
  · intro j req decoded hj
    rw [GrantState.put, Table.get?_put hr₀] at hj
    split at hj
    · exact absurd (Option.some.inj hj) (isPlain_reading hr req decoded)
    · exact h.reading j req decoded hj
  · rintro client (⟨j, r', hj, hheld⟩ | hcreated)
    · rw [GrantState.put, Table.get?_put hr₀] at hj
      split at hj
      · cases hj
        rw [heldClient?_of_isPlain hr] at hheld
        cases hheld
      · exact h.known client (.inl ⟨j, r', hj, hheld⟩)
    · exact h.known client (.inr hcreated)

/-- An authorization goes on with a client. -/
theorem Later.putClient {client : OAuthClient}
    (hr₀ : s.requests.get? i = some r₀) (hheld : heldClient? r = some client)
    (hclient : Known s client ∨ client ∈ s.clients) : Later s (s.put i r) := by
  refine { Later.refl s with count := ?_, reading := ?_, known := ?_ }
  · show s.requests.next ≤ (s.requests.put i r).next
    exact Nat.le_of_eq (Table.next_put _ _ _).symm
  · intro j req decoded hj
    rw [GrantState.put, Table.get?_put hr₀] at hj
    split at hj
    · cases hj
      cases hheld
    · exact .inl hj
  · rintro client' (⟨j, r', hj, hheld'⟩ | hcreated)
    · rw [GrantState.put, Table.get?_put hr₀] at hj
      split at hj
      · cases hj
        rw [hheld] at hheld'
        cases hheld'
        exact hclient
      · exact .inl (.inl ⟨j, r', hj, hheld'⟩)
    · exact .inl (.inr hcreated)

/-- A request comes in. -/
theorem Later.add (s : GrantState) (hr : isPlain r = true) :
    Later s (s.add r) := by
  refine { Later.refl s with count := ?_, reading := ?_, known := ?_ }
  · show s.requests.next ≤ (s.requests.add r).next
    rw [Table.next_add]
    exact Nat.le_succ _
  · intro j req decoded hj
    rcases Table.get?_add_eq_some.mp hj with ⟨_, heq⟩ | hold
    · exact absurd heq (isPlain_reading hr req decoded)
    · exact .inl hold
  · rintro client (⟨j, r', hj, hheld⟩ | hcreated)
    · rcases Table.get?_add_eq_some.mp hj with ⟨_, rfl⟩ | hold
      · rw [heldClient?_of_isPlain hr] at hheld
        cases hheld
      · exact .inl (.inl ⟨j, r', hold, hheld⟩)
    · exact .inl (.inr hcreated)

theorem isPlain_of_isIdle (hr : isIdle r = true) : isPlain r = true := by
  unfold isPlain
  split
  · cases hr
  · cases hr
  · cases hr
  · rfl

/-- A request goes on, and nothing has to be known of it. -/
theorem Later.putIdle (h : Later s s') (hr₀ : s'.requests.get? i = some r₀)
    (hr : isIdle r = true) : Later s (s'.put i r) := h.put hr₀ (isPlain_of_isIdle hr)

theorem later_goes (hr : s.requests.get? i = some r) (hgoes : Goes sha256 s i r s') : Later s s' := by
  cases hgoes with
  | idle _ hidle => exact (Later.refl s).putIdle hr hidle
  | holds hheld hclient =>
    apply Later.putClient hr hheld
    rcases hclient with hclient | hclient
    · exact .inl (.inl ⟨i, _, hr, hclient⟩)
    · exact .inr hclient.2
  | draws x hidle =>
    have hdraw : Later s { s with drawn := s.drawn ++ [x] } :=
      .extend rfl (Nat.le_refl _) (fun _ _ h => h) fun _ he => .inl he
    exact hdraw.putIdle hr hidle
  | @creates req client userId row r hfresh hunused hclient hscopes hidle =>
    have hknown : Known s client := .inl ⟨i, _, hr, rfl⟩
    have hcreate : Later s (GrantState.log
        { s with drawn := s.drawn ++ [row.code], codes := s.codes ++ [row] }
        (.created row client)) := .log rfl rfl rfl hknown
    exact hcreate.putIdle hr hidle
  | findsCode | findsRecord => exact (Later.refl s).put hr rfl
  | @claimFails req client row r hidle =>
    have hclaim : Later s (s.claim row).1 :=
      .extend rfl (Nat.le_refl _) (fun _ _ h => h) fun _ he => .inl he
    exact hclaim.putIdle hr hidle
  | @claims req client row =>
    have hclaim : Later s ((s.claim row).1.log (.exchanged req row s.now)) :=
      .log rfl rfl rfl trivial
    exact hclaim.put hr rfl
  | issues x hunsigned _ _ _ _ _ hidle =>
    refine Later.putIdle ?_ hr hidle
    exact .addRecord rfl rfl rfl hunsigned
  | refreshes expiresAt hcurrent hunsigned _ _ _ hidle =>
    refine Later.putIdle ?_ hr hidle
    refine .putRecord hcurrent ?_ rfl rfl rfl hunsigned
    -- the update does not write the mark of a revocation
    exact fun hrevoked => hrevoked
  | @found req stage record =>
    unfold GrantState.found
    split
    · have hlog : Later s (s.log (.revoked req record)) := .log rfl rfl rfl trivial
      exact hlog.put hr rfl
    · exact (Later.refl s).put hr rfl
  | revokes hcurrent hidle =>
    refine Later.putIdle ?_ hr hidle
    refine .putRecord hcurrent ?_ rfl rfl rfl trivial
    exact fun _ => rfl
  | @readsUser req decoded record hfound hrevoked =>
    refine { Later.refl s with count := ?_, reading := ?_, known := ?_ }
    · show s.requests.next ≤ (s.requests.put i _).next
      exact Nat.le_of_eq (Table.next_put _ _ _).symm
    · intro j req' decoded' hj
      rw [GrantState.put, Table.get?_put hr] at hj
      split at hj
      · next hji =>
        cases hj
        exact .inr ⟨record, hfound, hrevoked, hji ▸ hr⟩
      · exact .inl hj
    · rintro client (⟨j, r', hj, hheld⟩ | hcreated)
      · rw [GrantState.put, Table.get?_put hr] at hj
        split at hj
        · cases hj
          cases hheld
        · exact .inl (.inl ⟨j, r', hj, hheld⟩)
      · exact .inl (.inr hcreated)
  | @accepts req decoded context r huser hclient hscopes hidle =>
    refine Later.putIdle ?_ hr hidle
    refine { Later.refl s with issued := ?_, accepted := ?_, known := ?_ }
    · intro tokenId token _ hfor
      rcases issuedFor_snoc.mp hfor with hfor | ⟨row, heq⟩ | heq
      · exact hfor
      all_goals cases heq
    · intro j token context hmem
      rcases List.mem_append.mp hmem with hin | heq
      · exact .inl hin
      · cases List.mem_singleton.mp heq
        exact .inr ⟨req, decoded, rfl, hr⟩
    · rintro client (hheld | ⟨row, hmem⟩)
      · exact .inl (.inl hheld)
      · exact .inl (.inr ⟨row, by simpa using hmem⟩)

theorem later_step {rt : UrlRuntime} {a : GrantAction} (hstep : s.step rt sha256 a = some s') :
    Later s s' := by
  cases a with
  | tick _ | setClients _ | setUsers _ =>
    cases hstep
    exact .extend rfl (Nat.le_refl _) (fun _ _ h => h) fun _ he => .inl he
  | deleteClient clientId =>
    cases hstep
    refine .extend rfl ?_ ?_ fun _ he => .inl he
    · exact Nat.le_of_eq (Table.next_eraseIf _ _).symm
    · intro tokenId _ hrevoked record hrecord
      exact hrevoked record (Table.get?_of_get?_eraseIf hrecord)
  | authorize _ | exchange _ | refresh _ | revoke _ =>
    cases hstep
    exact .add s rfl
  | validate req =>
    cases hstep
    have hplain : isPlain (.validate req (s.validateStart req)) = true := by
      unfold validateStart
      split
      all_goals rfl
    exact .add s hplain
  | next i draw =>
    obtain ⟨r, hr, hgoes⟩ := goes_of_step hstep
    exact later_goes hr hgoes

/-- Requests that have been accepted are among those that came in. -/
def Numbered (s : GrantState) : Prop :=
  ∀ i token context, .accepted i token context ∈ s.events → i < s.requests.next

theorem Numbered.later (h : Numbered s) (hlater : Later s s') : Numbered s' := by
  intro i token context hmem
  have hcount := hlater.count
  rcases hlater.accepted i token context hmem with hin | ⟨req, decoded, _, hr⟩
  · have hlt := h i token context hin
    omega
  · have hlt := Table.lt_next_of_get? hr
    omega

/-- The record is revoked, and none of its access tokens is accepted from the request `n` on. -/
structure Closed (tokenId n : Nat) (s : GrantState) : Prop where
  lt : tokenId < s.tokens.next
  revoked : ∀ record, s.tokens.get? tokenId = some record → record.revoked = true
  reading : ∀ j req decoded, n ≤ j →
    s.requests.get? j = some (.validate req (.readingUser decoded)) →
    ¬IssuedFor s.events tokenId req.token
  accepted : ∀ j token context, n ≤ j → .accepted j token context ∈ s.events →
    ¬IssuedFor s.events tokenId token

theorem closed_of_revoked (hok : Ok sha256 s) (hnum : Numbered s) {req : RevokeRequest}
    (hrevoked : .revoked req record ∈ s.events) (hown : Own req record) :
    Closed record.tokenId s.requests.next s := by
  obtain ⟨hlt, hrows⟩ := hok.tables.revoked req record hrevoked hown
  refine ⟨hlt, hrows, ?_, ?_⟩
  · intro j req' decoded hj hr
    have hlt := Table.lt_next_of_get? hr
    omega
  · intro j token context hj hmem
    have hlt := hnum j token context hmem
    omega

theorem Closed.later {tokenId n : Nat} (h : Closed tokenId n s) (hok : Ok sha256 s)
    (hlater : Later s s') : Closed tokenId n s' := by
  -- a token that is signed is one of the record after the step only if it was before
  have hsigned : ∀ token decoded, s.signed.lookup token = some decoded →
      ¬IssuedFor s.events tokenId token → ¬IssuedFor s'.events tokenId token := by
    intro token decoded hlookup hnot hissued
    exact hnot (hlater.issued tokenId token (by simp [hlookup]) hissued)
  constructor
  case lt => exact Nat.lt_of_lt_of_le h.lt hlater.next
  case revoked => exact hlater.revoked tokenId h.lt h.revoked
  case reading =>
    intro j req decoded hj hr
    rcases hlater.reading j req decoded hr with hr | ⟨record, hfound, hvalid, hr⟩
    · have hlookup := (hok.requests j _ hr).1
      exact hsigned _ decoded hlookup (h.reading j req decoded hj hr)
    · -- the record that has been found is another one, for it is not revoked
      have hlookup : s.signed.lookup req.token = some decoded := hok.requests j _ hr
      apply hsigned _ decoded hlookup
      intro hissued
      obtain ⟨tokenId', hrecord, htoken⟩ := Table.get?_of_find? hfound
      have hissued' := (hok.tables.records tokenId' record hrecord).2.2
      rw [Option.some.inj (of_decide_eq_true htoken)] at hissued'
      obtain rfl := hok.events.access_unique tokenId tokenId' req.token hissued hissued'
      rw [h.revoked record hrecord] at hvalid
      cases hvalid
  case accepted =>
    intro j token context hj hmem
    rcases hlater.accepted j token context hmem with hin | ⟨req, decoded, rfl, hr⟩
    · obtain ⟨row, tokenId', first, hissued, _⟩ := hok.events.accepted_bound j token context hin
      obtain ⟨_, _, decoded, _, hlookup, _⟩ := hok.events.access_signed tokenId' token hissued
      exact hsigned token decoded hlookup (h.accepted j token context hj hin)
    · have hlookup := (hok.requests j _ hr).1
      exact hsigned _ decoded hlookup (h.reading j req decoded hj hr)

end

/-! ## Every run -/

section

variable {rt : UrlRuntime} {sha256 : String → String} {clients : List OAuthClient}
  {users : List OAuthUser} {now : Nat} {trs : List (Transition GrantState GrantAction)}
  {s : GrantState}

theorem ok_of_isRun (h : IsRun (step rt sha256) (init clients users now) trs s) : Ok sha256 s :=
  h.invariant (fun _ _ _ hok hstep => hok.step hstep) (ok_init sha256 clients users now)

theorem numbered_of_isRun (h : IsRun (step rt sha256) (init clients users now) trs s) :
    Numbered s := by
  apply h.invariant
  · intro s a s' hnum hstep
    exact hnum.later (later_step hstep)
  · intro i token context hmem
    cases hmem

/-- A client for which a code is created was registered as it had been read. -/
theorem registered_of_known (h : IsRun (step rt sha256) (init clients users now) trs s) :
    ∀ client, Known s client → ∃ tr ∈ trs, client ∈ tr.pre.clients := by
  apply h.history (P := fun trs s => ∀ client, Known s client → ∃ tr ∈ trs, client ∈ tr.pre.clients)
  · rintro client (⟨i, r, hr, _⟩ | ⟨row, hmem⟩)
    · simp [init] at hr
    · simp [init] at hmem
  · intro trs s a s' _ ih hstep client hknown
    rcases (later_step hstep).known client hknown with hknown | hclient
    · obtain ⟨tr, htr, hclient⟩ := ih client hknown
      exact ⟨tr, List.mem_append_left _ htr, hclient⟩
    · exact ⟨⟨s, a, s'⟩, by simp, hclient⟩

/-- After a revocation no access token of the record is accepted by a validation that starts later. -/
theorem not_accepted_of_revoked (hs : Ok sha256 s) (hnum : Numbered s) {req : RevokeRequest}
    {record : OAuthToken} (hrevoked : .revoked req record ∈ s.events) (hown : Own req record)
    {t : GrantState} (h : IsRun (step rt sha256) s trs t) {j : Nat} (hj : s.requests.next ≤ j)
    {token : String} {context : OAuthContext} (haccepted : .accepted j token context ∈ t.events) :
    ¬IssuedFor t.events record.tokenId token := by
  have hinv : Ok sha256 t ∧ Closed record.tokenId s.requests.next t := by
    apply h.invariant (I := fun t => Ok sha256 t ∧ Closed record.tokenId s.requests.next t)
    · rintro u a u' ⟨hok, hclosed⟩ hstep
      exact ⟨hok.step hstep, hclosed.later hok (later_step hstep)⟩
    · exact ⟨hs, closed_of_revoked hs hnum hrevoked hown⟩
  exact hinv.2.accepted j token context hj haccepted

end

/-! ## Grants are single-use, bound and revocable -/

theorem grants_bound_and_revocable (rt : UrlRuntime) (sha256 : String → String)
    (clients : List OAuthClient) (users : List OAuthUser) (now : Nat)
    (trs : List (Transition GrantState GrantAction)) (s : GrantState)
    (h : IsRun (step rt sha256) (init clients users now) trs s) :
    -- each record is one of a code, and no other record is
    ((∀ tokenId record, s.tokens.get? tokenId = some record →
        ∃ row token, .issued row tokenId token ∈ s.events) ∧
      ∀ row tokenId token row' tokenId' token', .issued row tokenId token ∈ s.events →
        .issued row' tokenId' token' ∈ s.events →
        (row.code = row'.code ↔ tokenId = tokenId')) ∧
    -- a code is exchanged by a request that it was issued for, in its time
    (∀ row tokenId token, .issued row tokenId token ∈ s.events →
      ∃ req time, .exchanged req row time ∈ s.events) ∧
    (∀ req row time, .exchanged req row time ∈ s.events →
      Meets sha256 req row ∧ time ≤ row.expiresAt ∧ ∃ client, .created row client ∈ s.events) ∧
    -- an accepted token speaks of its code, and the code of what its client had registered
    (∀ i token context, .accepted i token context ∈ s.events →
      ∃ row tokenId first client, IssuedFor s.events tokenId token ∧
        .issued row tokenId first ∈ s.events ∧ .created row client ∈ s.events ∧
        context.userId = row.userId ∧ context.oauthClientId = row.clientId ∧
        context.oauthScopes ⊆ row.scopes ∧ row.clientId = client.clientId ∧
        row.scopes ⊆ client.scopes ∧ ∃ tr ∈ trs, client ∈ tr.pre.clients) ∧
    -- what has been revoked is not accepted later
    ∀ req record, .revoked req record ∈ s.events → Own req record →
      ∀ trs' t, IsRun (step rt sha256) s trs' t →
        ∀ j token context, s.requests.next ≤ j → .accepted j token context ∈ t.events →
          ¬IssuedFor t.events record.tokenId token := by
  have hok : Ok sha256 s := ok_of_isRun h
  refine ⟨⟨?_, ?_⟩, ?_, hok.events.exchanged_bound, ?_, ?_⟩
  · intro tokenId record hrecord
    obtain ⟨_, ⟨row, first, hissued, _⟩, _⟩ := hok.tables.records tokenId record hrecord
    exact ⟨row, first, hissued⟩
  · intro row tokenId token row' tokenId' token' hissued hissued'
    constructor
    · exact hok.events.issued_code row tokenId token row' tokenId' token' hissued hissued'
    · rintro rfl
      rw [hok.events.issued_record row tokenId token row' token' hissued hissued']
  · intro row tokenId token hissued
    exact (hok.events.issued_exchanged row tokenId token hissued).1
  · intro i token context haccepted
    obtain ⟨row, tokenId, first, hissued, hrow, huser, hclient, hscopes⟩ :=
      hok.events.accepted_bound i token context haccepted
    obtain ⟨⟨req, time, hexchanged⟩, _⟩ := hok.events.issued_exchanged row tokenId first hrow
    obtain ⟨_, _, client, hcreated⟩ := hok.events.exchanged_bound req row time hexchanged
    obtain ⟨hsame, hregistered⟩ := hok.events.created_bound row client hcreated
    have hknown := registered_of_known h client (.inr ⟨row, hcreated⟩)
    exact ⟨row, tokenId, first, client, hissued, hrow, hcreated, huser, hclient, hscopes, hsame,
      hregistered, hknown⟩
  · intro req record hrevoked hown trs' t hrun j token context hj haccepted
    exact not_accepted_of_revoked hok (numbered_of_isRun h) hrevoked hown hrun hj haccepted

/-! ## Runs -/

/-- SHA-256 in base64url, at one verifier. -/
def s256 (codeVerifier : String) : String :=
  if codeVerifier = "dBjftJeZ4CVP-mB92K27uhbUJU1p1r_wW1gFWFOEjXk" then
    "E9Melhoa2OwvFrEMTJguCHaoeK1t8URWbuGJSstw-cM"
  else codeVerifier

/-- No redirect URI of a loopback address. -/
def grantRuntime : UrlRuntime := ⟨fun _ => none, fun _ => none⟩

def grantClient (clientId : String) : OAuthClient :=
  ⟨clientId, "https://gateway.example", none, ["https://app.example/callback"], ["mcp:tools"],
    ["authorization_code", "refresh_token"], ["code"], "none"⟩

def grantInit : GrantState :=
  init [grantClient "app", grantClient "other"] [⟨"alice", true, 0⟩] 1000

def authorizeRequest : AuthorizeRequest :=
  { params := ⟨"app", "https://app.example/callback", none, none,
      some "E9Melhoa2OwvFrEMTJguCHaoeK1t8URWbuGJSstw-cM", some "S256", none⟩
    issuer := "https://gateway.example"
    publicUrl := "https://gateway.example/mcp"
    validatedUserId := some "alice" }

def exchangeRequest : ExchangeRequest :=
  { code := some "c0de"
    redirectUri := some "https://app.example/callback"
    codeVerifier := some "dBjftJeZ4CVP-mB92K27uhbUJU1p1r_wW1gFWFOEjXk"
    credentials := ⟨some "app", none⟩ }

/-- A client, a random value and an access token that a step may get. -/
def drawOf (clientId random accessToken : String) : Draw :=
  ⟨some (grantClient clientId), none, random, accessToken⟩

/-- A code is created and exchanged. -/
def issueActions : List GrantAction :=
  [.authorize authorizeRequest, .next 0 (drawOf "app" "" ""), .next 0 (drawOf "app" "c0de" ""),
    .exchange exchangeRequest, .next 1 (drawOf "app" "" ""), .next 1 (drawOf "app" "" ""),
    .next 1 (drawOf "app" "" ""), .next 1 (drawOf "app" "r1" "a1")]

/-- The token is validated, and its record is revoked while a refresh is in progress. -/
def revokeActions : List GrantAction :=
  [.validate ⟨"a1", none⟩, .next 2 (drawOf "app" "" ""), .next 2 (drawOf "app" "" ""),
    .refresh ⟨some "r1", none, ⟨some "app", none⟩⟩, .next 3 (drawOf "app" "" ""),
    .next 3 (drawOf "app" "" ""), .revoke ⟨some "r1", none, ⟨some "app", none⟩⟩,
    .next 4 (drawOf "app" "" ""), .next 4 (drawOf "app" "" ""), .next 4 (drawOf "app" "" "")]

/-- The record of the run. -/
def grantRecord : OAuthToken :=
  ⟨0, "a1", some "r1", "app", "alice", ["mcp:tools"], some "https://gateway.example/mcp", 3601000,
    some 2592001000, false⟩

theorem grants_bound_and_revocable_revokeActions :
    ∃ s, exec (step grantRuntime s256) grantInit (issueActions ++ revokeActions) = some s ∧
      .accepted 2 "a1" ⟨"alice", "app", ["mcp:tools"], 3601⟩ ∈ s.events ∧
      (∃ req row time, .exchanged req row time ∈ s.events ∧ Meets s256 req row) ∧
      ∀ trs t, IsRun (step grantRuntime s256) s trs t →
        ∀ j token context, 5 ≤ j → .accepted j token context ∈ t.events →
          ¬IssuedFor t.events 0 token := by
  have hrun : IsRun (step grantRuntime s256) grantInit
      (trace (step grantRuntime s256) grantInit (issueActions ++ revokeActions))
      ((exec (step grantRuntime s256) grantInit (issueActions ++ revokeActions)).get
        (by decide)) := isRun_trace _ _ _ (by simp)
  obtain ⟨_, hissued, hexchanged, _, hrevoked⟩ := grants_bound_and_revocable _ _ _ _ _ _ _ hrun
  obtain ⟨req, time, hmem⟩ := hissued ⟨"c0de", "app", "alice", "https://app.example/callback",
    ["mcp:tools"], some "E9Melhoa2OwvFrEMTJguCHaoeK1t8URWbuGJSstw-cM", some "S256",
    some "https://gateway.example/mcp", 601000, false⟩ 0 "a1" (by decide)
  refine ⟨_, by simp, by decide, ⟨req, _, time, hmem, (hexchanged _ _ _ hmem).1⟩, ?_⟩
  exact hrevoked ⟨some "r1", none, ⟨some "app", none⟩⟩ grantRecord (by decide)
    (by simp [Own, given, grantRecord])

/-- Another client revokes the token, and it is validated afterwards. -/
def foreignActions : List GrantAction :=
  [.revoke ⟨some "a1", none, ⟨some "other", none⟩⟩, .next 2 (drawOf "other" "" ""),
    .next 2 (drawOf "other" "" ""), .next 2 (drawOf "other" "" "")]

def foreignState : GrantState :=
  (exec (step grantRuntime s256) grantInit (issueActions ++ foreignActions)).get (by decide)

def validateActions : List GrantAction :=
  [.validate ⟨"a1", none⟩, .next 3 (drawOf "app" "" ""), .next 3 (drawOf "app" "" "")]

theorem foreign_revoke_keeps_token :
    ¬ ∀ (rt : UrlRuntime) (sha256 : String → String) (clients : List OAuthClient)
      (users : List OAuthUser) (now : Nat) (trs : List (Transition GrantState GrantAction))
      (s : GrantState), IsRun (step rt sha256) (init clients users now) trs s →
      ∀ req record, .revoked req record ∈ s.events →
        ∀ trs' t, IsRun (step rt sha256) s trs' t →
          ∀ j token context, s.requests.next ≤ j → .accepted j token context ∈ t.events →
            ¬IssuedFor t.events record.tokenId token := by
  intro h
  have hrun : IsRun (step grantRuntime s256) grantInit
      (trace (step grantRuntime s256) grantInit (issueActions ++ foreignActions)) foreignState :=
    isRun_trace _ _ _ (by simp [foreignState])
  have hlater : IsRun (step grantRuntime s256) foreignState
      (trace (step grantRuntime s256) foreignState validateActions)
      ((exec (step grantRuntime s256) foreignState validateActions).get (by decide)) :=
    isRun_trace _ _ _ (by simp)
  have hrefused := h _ _ _ _ _ _ _ hrun ⟨some "a1", none, ⟨some "other", none⟩⟩ grantRecord
    (by decide) _ _ hlater 3 "a1" ⟨"alice", "app", ["mcp:tools"], 3601⟩ (by decide) (by decide)
  apply hrefused
  exact .inl ⟨⟨"c0de", "app", "alice", "https://app.example/callback", ["mcp:tools"],
    some "E9Melhoa2OwvFrEMTJguCHaoeK1t8URWbuGJSstw-cM", some "S256",
    some "https://gateway.example/mcp", 601000, false⟩, by decide⟩

end GrantState

end PetaCore
