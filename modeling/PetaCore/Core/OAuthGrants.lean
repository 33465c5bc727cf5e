import PetaCore.Core.OAuth
import PetaCore.ForStd.Table

/-!
# OAuth grants

The requests of `OAuthController` and `OAuthTokenValidator` that make, use and revoke grants:
`completeAuthorizationGrant`, `handleAuthorizationCodeGrant`, `handleRefreshTokenGrant`, `revoke`
and `validateToken`. Each is cut at its database statements, between which the others run. A
request whose statement fails is one that does not go on.

Random codes and tokens are drawn, each different from all that were drawn before (that an access
token may be one that was signed before is the matter of `AccessTokens`). `jwt.verify` accepts the
tokens that `jwt.sign` has made, each with the payload it was made for.

A client is read by its id. Whether the row is found depends on the issuer too
(`getClientForIssuer`), and a client with a URL for an id is registered while it is looked up
(`registerClient`), so a lookup gives the registered row or nothing.
-/

namespace PetaCore

/-! ## The tables -/

/-- `OAuthTokenPayload` -/
structure TokenPayload where
  type : String
  clientId : String
  userId : String
  scopes : List String
  aud : Option String
  iat : Nat
  exp : Nat
deriving DecidableEq

/-- A row of `oauth_tokens`. -/
structure OAuthToken where
  tokenId : Nat
  accessToken : String
  refreshToken : Option String
  clientId : String
  userId : String
  scopes : List String
  resource : Option String
  accessTokenExpiresAt : Nat
  refreshTokenExpiresAt : Option Nat
  revoked : Bool
deriving DecidableEq

/-- What `validateToken` reads of a user. -/
structure OAuthUser where
  userId : String
  enabled : Bool
  /-- in seconds; zero for none -/
  expiresAt : Nat
deriving DecidableEq

/-- The fields of the `AuthContext` of `validateToken` that come from the token. -/
structure OAuthContext where
  userId : String
  oauthClientId : String
  oauthScopes : List String
  oauthAccessTokenExpiresAt : Nat
deriving DecidableEq

/-! ## The requests -/

/-- What an endpoint answers when it refuses a request. -/
structure OAuthError where
  status : Nat
  error : String
  errorDescription : String
deriving DecidableEq

/-- The credentials of a request, from its `Authorization` header or else from its body. -/
structure Credentials where
  clientId : Option String
  clientSecret : Option String
deriving DecidableEq

structure AuthorizeRequest where
  params : AuthorizationParams
  issuer : String
  publicUrl : String
  validatedUserId : Option String
deriving DecidableEq

structure ExchangeRequest where
  code : Option String
  redirectUri : Option String
  codeVerifier : Option String
  credentials : Credentials
deriving DecidableEq

structure RefreshRequest where
  refreshToken : Option String
  scope : Option String
  credentials : Credentials
deriving DecidableEq

structure RevokeRequest where
  token : Option String
  tokenTypeHint : Option String
  credentials : Credentials
deriving DecidableEq

structure ValidateRequest where
  token : String
  expectedAudience : Option String
deriving DecidableEq

inductive AuthorizeStage where
  | lookingUp
  | validating (client : OAuthClient)
  | creating (client : OAuthClient) (userId : String)
  | redirected (redirect : Redirect)
  | failed (message : String)
deriving DecidableEq

inductive ExchangeStage where
  | lookingUp
  | verifying (client : OAuthClient)
  | finding (client : OAuthClient)
  | claiming (client : OAuthClient) (row : AuthorizationCode)
  | creating (client : OAuthClient) (row : AuthorizationCode)
  | answered (record : OAuthToken)
  | failed (e : OAuthError)
deriving DecidableEq

inductive RefreshStage where
  | lookingUp
  | verifying
  | finding
  | updating (record : OAuthToken) (newScopes : List String)
  | answered (newAccessToken : String) (newScopes : List String)
  | failed (e : OAuthError)
deriving DecidableEq

inductive RevokeStage where
  | lookingUp
  | verifying
  | findingRefresh
  | findingAccess
  | updating (record : OAuthToken)
  | answered
  | failed (e : OAuthError)
deriving DecidableEq

inductive ValidateStage where
  | finding (decoded : TokenPayload)
  | readingUser (decoded : TokenPayload)
  | accepted (context : OAuthContext)
  | rejected (error : String)
deriving DecidableEq

inductive GrantRequest where
  | authorize (req : AuthorizeRequest) (stage : AuthorizeStage)
  | exchange (req : ExchangeRequest) (stage : ExchangeStage)
  | refresh (req : RefreshRequest) (stage : RefreshStage)
  | revoke (req : RevokeRequest) (stage : RevokeStage)
  | validate (req : ValidateRequest) (stage : ValidateStage)
deriving DecidableEq

/-! ## The state -/

/-- What has happened, for the theorems: no step reads it. -/
inductive GrantEvent where
  /-- a code has been created for a client, as it had been read -/
  | created (row : AuthorizationCode) (client : OAuthClient)
  /-- a code has been claimed -/
  | exchanged (req : ExchangeRequest) (row : AuthorizationCode) (time : Nat)
  /-- a token record has been created for a code -/
  | issued (row : AuthorizationCode) (tokenId : Nat) (accessToken : String)
  | refreshed (tokenId : Nat) (accessToken : String)
  /-- a revocation has returned that had found the record -/
  | revoked (req : RevokeRequest) (record : OAuthToken)
  | accepted (request : Nat) (token : String) (context : OAuthContext)
deriving DecidableEq

structure GrantState where
  clients : List OAuthClient
  users : List OAuthUser
  codes : List AuthorizationCode
  tokens : Table OAuthToken
  /-- the access tokens that have been signed -/
  signed : List (String × TokenPayload)
  /-- the random codes and refresh tokens that have been drawn -/
  drawn : List String
  now : Nat
  requests : Table GrantRequest
  events : List GrantEvent
deriving DecidableEq

/-- What a step of a request gets from outside. -/
structure Draw where
  client : Option OAuthClient
  userId : Option String
  random : String
  accessToken : String
deriving DecidableEq

inductive GrantAction where
  | tick (time : Nat)
  /-- clients are registered and updated -/
  | setClients (clients : List OAuthClient)
  | deleteClient (clientId : String)
  | setUsers (users : List OAuthUser)
  | authorize (req : AuthorizeRequest)
  | exchange (req : ExchangeRequest)
  | refresh (req : RefreshRequest)
  | revoke (req : RevokeRequest)
  | validate (req : ValidateRequest)
  /-- a request goes on to its next statement -/
  | next (request : Nat) (draw : Draw)
deriving DecidableEq

/-! ## The checks -/

namespace OAuth

/-- A parameter that is there and not empty. -/
def given (x : Option String) : Option String := x.filter (· ≠ "")

/-- What the token endpoint asks of a client before it reads the secret. -/
def checkGrantClient (grantType : String) (credentials : Credentials) :
    Option OAuthClient → Except OAuthError OAuthClient
  | none => .error ⟨401, "invalid_client", "Client not found"⟩
  | some client =>
    if grantType ∉ client.grantTypes then
      .error ⟨400, "unauthorized_client",
        "Client is not registered for " ++ grantType ++ " grant"⟩
    else if client.tokenEndpointAuthMethod ≠ "none" ∧ given credentials.clientSecret = none then
      .error ⟨401, "invalid_client", "client_secret is required for confidential clients"⟩
    else .ok client

/-- `verifyClientCredentials` -/
def verifyClientCredentials (clientSecret : Option String) : Option OAuthClient → Bool
  | none => false
  | some client =>
    client.tokenEndpointAuthMethod = "none" ||
      ((given client.clientSecret).isSome && given client.clientSecret = given clientSecret)

def invalidCredentials : OAuthError := ⟨401, "invalid_client", "Invalid client credentials"⟩

/-- What `handleAuthorizationCodeGrant` asks of a code. -/
def checkCode (sha256 : String → String) (req : ExchangeRequest) (now : Nat) :
    Option AuthorizationCode → Except OAuthError AuthorizationCode
  | none => .error ⟨400, "invalid_grant", "Invalid authorization code"⟩
  | some row =>
    if row.used then .error ⟨400, "invalid_grant", "Authorization code has been used"⟩
    else if row.expiresAt < now then
      .error ⟨400, "invalid_grant", "Authorization code has expired"⟩
    else if req.credentials.clientId ≠ some row.clientId then
      .error ⟨400, "invalid_grant", "Authorization code was issued to another client"⟩
    else if req.redirectUri ≠ some row.redirectUri then
      .error ⟨400, "invalid_grant", "redirect_uri mismatch"⟩
    else
      match given row.codeChallenge, given req.codeVerifier with
      | some codeChallenge, some codeVerifier =>
        if row.challengeMethod ≠ some "S256" then
          .error ⟨400, "invalid_grant", "S256 PKCE code_verifier is required"⟩
        else if sha256 codeVerifier ≠ codeChallenge then
          .error ⟨400, "invalid_grant", "Invalid code_verifier"⟩
        else .ok row
      | _, _ => .error ⟨400, "invalid_grant", "S256 PKCE code_verifier is required"⟩

/-- What `handleRefreshTokenGrant` asks of a record; the scopes of the new access token. -/
def checkRefresh (req : RefreshRequest) (now : Nat) :
    Option OAuthToken → Except OAuthError (OAuthToken × List String)
  | none => .error ⟨400, "invalid_grant", "Invalid refresh token"⟩
  | some record =>
    if record.revoked then .error ⟨400, "invalid_grant", "Token has been revoked"⟩
    else if record.refreshTokenExpiresAt.any (· < now) then
      .error ⟨400, "invalid_grant", "Refresh token has expired"⟩
    else if req.credentials.clientId ≠ some record.clientId then
      .error ⟨400, "invalid_grant", "Refresh token was issued to another client"⟩
    else
      match given req.scope with
      | none => .ok (record, record.scopes)
      | some scope =>
        let requestedScopes := parseScope (some scope)
        if !isScopeSubset requestedScopes record.scopes then
          .error ⟨400, "invalid_scope", "Requested scope exceeds original grant"⟩
        else .ok (record, requestedScopes)

/-- The payload of `generateAccessToken`. -/
def payload (clientId userId : String) (scopes : List String) (resource : Option String)
    (now : Nat) : TokenPayload :=
  { type := "access_token"
    clientId
    userId
    scopes
    aud := given resource
    iat := now / 1000
    exp := now / 1000 + 3600 }

/-- `validateToken` up to its first statement, after `jwt.verify`. -/
def checkPayload (req : ValidateRequest) (now : Nat) :
    Option TokenPayload → Except String TokenPayload
  | none => .error "Invalid token signature"
  | some decoded =>
    if decoded.type ≠ "access_token" then .error "Invalid token type"
    else if (given req.expectedAudience).any fun audience => given decoded.aud ≠ some audience then
      .error "Token audience does not match MCP resource"
    else if decoded.exp * 1000 < now then .error "Token has expired"
    else .ok decoded

/-- `validate` -/
def validate (expectedAudience : Option String) (now : Nat) : Option OAuthToken → Bool
  | none => false
  | some record =>
    !record.revoked && !(record.accessTokenExpiresAt < now) &&
      (given expectedAudience).all fun audience => record.resource = some audience

/-- What `validateToken` asks of the user. -/
def checkUser (now : Nat) : Option OAuthUser → Except String OAuthUser
  | none => .error "User not found"
  | some user =>
    if !user.enabled then .error "User is not active"
    else if 0 < user.expiresAt ∧ user.expiresAt < now / 1000 then .error "User has expired"
    else .ok user

end OAuth

namespace GrantState

open OAuth

def init (clients : List OAuthClient) (users : List OAuthUser) (now : Nat) : GrantState :=
  ⟨clients, users, [], .empty, [], [], now, .empty, []⟩

def put (s : GrantState) (i : Nat) (request : GrantRequest) : GrantState :=
  { s with requests := s.requests.put i request }

def log (s : GrantState) (event : GrantEvent) : GrantState :=
  { s with events := s.events ++ [event] }

/-- Whether a lookup of the client may give this. -/
def mayFind (s : GrantState) (clientId : Option String) (client : Option OAuthClient) : Bool :=
  client.all fun client => client ∈ s.clients ∧ some client.clientId = clientId

/-- `jwt.verify`, which refuses a token from the second of its `exp` on. -/
def verify (s : GrantState) (token : String) : Option TokenPayload :=
  (s.signed.lookup token).filter fun decoded => s.now / 1000 < decoded.exp

def findCode (s : GrantState) (code : Option String) : Option AuthorizationCode :=
  s.codes.find? fun row => some row.code = code

def findByRefreshToken (s : GrantState) (token : Option String) : Option OAuthToken :=
  s.tokens.find? fun record => record.refreshToken.isSome && record.refreshToken = token

def findByAccessToken (s : GrantState) (token : Option String) : Option OAuthToken :=
  s.tokens.find? fun record => some record.accessToken = token

/-! ## The statements -/

/-- The conditions under which a row is claimed for the code of `row`. -/
def claimable (s : GrantState) (row row' : AuthorizationCode) : Bool :=
  row'.code = row.code && !row'.used && s.now ≤ row'.expiresAt

/-- The code is claimed; the number of rows that this has changed. -/
def claim (s : GrantState) (row : AuthorizationCode) : GrantState × Nat :=
  ({ s with codes := s.codes.map fun row' =>
      if s.claimable row row' then { row' with used := true } else row' },
    (s.codes.filter (s.claimable row)).length)

/-- `completeAuthorizationGrant` -/
def authorizeNext (rt : UrlRuntime) (s : GrantState) (i : Nat) (req : AuthorizeRequest)
    (draw : Draw) : AuthorizeStage → Option GrantState
  | .lookingUp =>
    if !s.mayFind (some req.params.clientId) draw.client then none
    else
      match checkClient rt req.params draw.client with
      | .error message => some (s.put i (.authorize req (.failed message)))
      | .ok client =>
        match given req.validatedUserId with
        | some userId => some (s.put i (.authorize req (.creating client userId)))
        | none => some (s.put i (.authorize req (.validating client)))
  | .validating client =>
    match draw.userId with
    | some userId => some (s.put i (.authorize req (.creating client userId)))
    | none =>
      some (s.put i (.authorize req (.redirected (.error req.params.redirectUri "invalid_request"
        "Invalid user token" req.params.state))))
  | .creating client userId =>
    if draw.random ∈ s.drawn then none
    else
      let s := { s with drawn := s.drawn ++ [draw.random] }
      match grant client req.params userId draw.random req.publicUrl s.now with
      | .error redirect => some (s.put i (.authorize req (.redirected redirect)))
      | .ok row =>
        some (({ s with codes := s.codes ++ [row] }.log (.created row client)).put i
          (.authorize req (.redirected (successRedirect req.params req.issuer row))))
  | .redirected _ | .failed _ => none

/-- `handleAuthorizationCodeGrant` -/
def exchangeNext (sha256 : String → String) (s : GrantState) (i : Nat) (req : ExchangeRequest)
    (draw : Draw) : ExchangeStage → Option GrantState
  | .lookingUp =>
    if !s.mayFind req.credentials.clientId draw.client then none
    else
      match checkGrantClient "authorization_code" req.credentials draw.client with
      | .error e => some (s.put i (.exchange req (.failed e)))
      | .ok client =>
        if client.tokenEndpointAuthMethod ≠ "none" then
          some (s.put i (.exchange req (.verifying client)))
        else some (s.put i (.exchange req (.finding client)))
  | .verifying client =>
    if !s.mayFind req.credentials.clientId draw.client then none
    else if verifyClientCredentials req.credentials.clientSecret draw.client then
      some (s.put i (.exchange req (.finding client)))
    else some (s.put i (.exchange req (.failed invalidCredentials)))
  | .finding client =>
    match checkCode sha256 req s.now (s.findCode req.code) with
    | .error e => some (s.put i (.exchange req (.failed e)))
    | .ok row => some (s.put i (.exchange req (.claiming client row)))
  | .claiming client row =>
    let (s', count) := s.claim row
    if count ≠ 1 then
      some (s'.put i (.exchange req (.failed ⟨400, "invalid_grant",
        "Authorization code has already been used or expired"⟩)))
    else
      some ((s'.log (.exchanged req row s.now)).put i (.exchange req (.creating client row)))
  | .creating client row =>
    if (s.signed.lookup draw.accessToken).isSome || draw.random ∈ s.drawn then none
    else
      let issueRefreshToken := "refresh_token" ∈ client.grantTypes
      let record : OAuthToken :=
        { tokenId := s.tokens.next
          accessToken := draw.accessToken
          refreshToken := if issueRefreshToken then some draw.random else none
          clientId := row.clientId
          userId := row.userId
          scopes := row.scopes
          resource := row.resource
          accessTokenExpiresAt := s.now + accessTokenLifetime
          refreshTokenExpiresAt :=
            if issueRefreshToken then some (s.now + refreshTokenLifetime) else none
          revoked := false }
      some (({ s with
          signed := s.signed ++
            [(draw.accessToken, payload row.clientId row.userId row.scopes row.resource s.now)]
          drawn := s.drawn ++ [draw.random]
          tokens := s.tokens.add record }.log
            (.issued row record.tokenId record.accessToken)).put i
        (.exchange req (.answered record)))
  | .answered _ | .failed _ => none

/-- `handleRefreshTokenGrant` -/
def refreshNext (s : GrantState) (i : Nat) (req : RefreshRequest) (draw : Draw) :
    RefreshStage → Option GrantState
  | .lookingUp =>
    if !s.mayFind req.credentials.clientId draw.client then none
    else
      match checkGrantClient "refresh_token" req.credentials draw.client with
      | .error e => some (s.put i (.refresh req (.failed e)))
      | .ok client =>
        if client.tokenEndpointAuthMethod ≠ "none" then
          some (s.put i (.refresh req .verifying))
        else some (s.put i (.refresh req .finding))
  | .verifying =>
    if !s.mayFind req.credentials.clientId draw.client then none
    else if verifyClientCredentials req.credentials.clientSecret draw.client then
      some (s.put i (.refresh req .finding))
    else some (s.put i (.refresh req (.failed invalidCredentials)))
  | .finding =>
    match checkRefresh req s.now (s.findByRefreshToken req.refreshToken) with
    | .error e => some (s.put i (.refresh req (.failed e)))
    | .ok (record, newScopes) => some (s.put i (.refresh req (.updating record newScopes)))
  | .updating record newScopes =>
    if (s.signed.lookup draw.accessToken).isSome then none
    else
      match s.tokens.get? record.tokenId with
      | none =>
        some (s.put i (.refresh req (.failed ⟨500, "server_error", "Internal server error"⟩)))
      | some current =>
        some (({ s with
            signed := s.signed ++ [(draw.accessToken,
              payload record.clientId record.userId newScopes record.resource s.now)]
            tokens := s.tokens.put record.tokenId
              { current with
                accessToken := draw.accessToken
                accessTokenExpiresAt := s.now + accessTokenLifetime
                scopes := newScopes } }.log
              (.refreshed record.tokenId draw.accessToken)).put i
          (.refresh req (.answered draw.accessToken newScopes)))
  | .answered _ _ | .failed _ => none

/-- Where `revoke` looks for the token first. -/
def findingStage (req : RevokeRequest) : RevokeStage :=
  match given req.tokenTypeHint with
  | none | some "refresh_token" => .findingRefresh
  | some "access_token" => .findingAccess
  | some _ => .answered

/-- `revoke`, when it has found the record of the token. -/
def found (s : GrantState) (i : Nat) (req : RevokeRequest) (record : OAuthToken) : GrantState :=
  if (given req.credentials.clientId).any fun clientId => record.clientId ≠ clientId then
    (s.log (.revoked req record)).put i (.revoke req .answered)
  else s.put i (.revoke req (.updating record))

/-- `revoke` -/
def revokeNext (s : GrantState) (i : Nat) (req : RevokeRequest) (draw : Draw) :
    RevokeStage → Option GrantState
  | .lookingUp =>
    if !s.mayFind req.credentials.clientId draw.client then none
    else
      match draw.client with
      | none =>
        some (s.put i (.revoke req (.failed ⟨401, "invalid_client", "Client not found"⟩)))
      | some client =>
        if client.tokenEndpointAuthMethod = "none" then some (s.put i (.revoke req (findingStage req)))
        else if given req.credentials.clientSecret = none then
          some (s.put i (.revoke req (.failed ⟨401, "invalid_client",
            "client_secret is required for confidential clients"⟩)))
        else some (s.put i (.revoke req .verifying))
  | .verifying =>
    if !s.mayFind req.credentials.clientId draw.client then none
    else if verifyClientCredentials req.credentials.clientSecret draw.client then
      some (s.put i (.revoke req (findingStage req)))
    else some (s.put i (.revoke req (.failed invalidCredentials)))
  | .findingRefresh =>
    match s.findByRefreshToken req.token with
    | some record => some (s.found i req record)
    | none =>
      if given req.tokenTypeHint = none then some (s.put i (.revoke req .findingAccess))
      else some (s.put i (.revoke req .answered))
  | .findingAccess =>
    match s.findByAccessToken req.token with
    | some record => some (s.found i req record)
    | none => some (s.put i (.revoke req .answered))
  | .updating record =>
    match s.tokens.get? record.tokenId with
    | none =>
      some (s.put i (.revoke req (.failed ⟨500, "server_error", "Internal server error"⟩)))
    | some current =>
      some (({ s with
          tokens := s.tokens.put record.tokenId { current with revoked := true } }.log
            (.revoked req record)).put i (.revoke req .answered))
  | .answered | .failed _ => none

/-- `validateToken` -/
def validateNext (s : GrantState) (i : Nat) (req : ValidateRequest) :
    ValidateStage → Option GrantState
  | .finding decoded =>
    if OAuth.validate req.expectedAudience s.now (s.findByAccessToken (some req.token)) then
      some (s.put i (.validate req (.readingUser decoded)))
    else
      some (s.put i (.validate req (.rejected
        (if (given req.expectedAudience).isSome then
          "Token is revoked or has the wrong resource audience"
        else "Token has been revoked"))))
  | .readingUser decoded =>
    match checkUser s.now (s.users.find? fun user => user.userId = decoded.userId) with
    | .error error => some (s.put i (.validate req (.rejected error)))
    | .ok user =>
      let context : OAuthContext :=
        { userId := user.userId
          oauthClientId := decoded.clientId
          oauthScopes := decoded.scopes
          oauthAccessTokenExpiresAt := decoded.exp }
      some ((s.log (.accepted i req.token context)).put i (.validate req (.accepted context)))
  | .accepted _ | .rejected _ => none

/-! ## The steps -/

/-- A request comes in. -/
def add (s : GrantState) (request : GrantRequest) : GrantState :=
  { s with requests := s.requests.add request }

/-- The first stage of a code exchange. -/
def exchangeStart (req : ExchangeRequest) : ExchangeStage :=
  if given req.code = none ∨ given req.redirectUri = none then
    .failed ⟨400, "invalid_request", "code and redirect_uri are required"⟩
  else if given req.credentials.clientId = none then
    .failed ⟨401, "invalid_client", "client_id is required"⟩
  else .lookingUp

def refreshStart (req : RefreshRequest) : RefreshStage :=
  if given req.refreshToken = none then
    .failed ⟨400, "invalid_request", "refresh_token is required"⟩
  else if given req.credentials.clientId = none then
    .failed ⟨401, "invalid_client", "client_id is required"⟩
  else .lookingUp

def revokeStart (req : RevokeRequest) : RevokeStage :=
  if given req.token = none then .failed ⟨400, "invalid_request", "token is required"⟩
  else if given req.credentials.clientId = none then findingStage req
  else .lookingUp

def validateStart (s : GrantState) (req : ValidateRequest) : ValidateStage :=
  match checkPayload req s.now (s.verify req.token) with
  | .error error => .rejected error
  | .ok decoded => .finding decoded

def step (rt : UrlRuntime) (sha256 : String → String) (s : GrantState) :
    GrantAction → Option GrantState
  | .tick time => some { s with now := s.now + time }
  | .setClients clients => some { s with clients }
  | .deleteClient clientId =>
    some { s with
      codes := s.codes.filter fun row => row.clientId ≠ clientId
      tokens := s.tokens.eraseIf fun record => record.clientId = clientId
      clients := s.clients.filter fun client => client.clientId ≠ clientId }
  | .setUsers users => some { s with users }
  | .authorize req => some (s.add (.authorize req .lookingUp))
  | .exchange req => some (s.add (.exchange req (exchangeStart req)))
  | .refresh req => some (s.add (.refresh req (refreshStart req)))
  | .revoke req => some (s.add (.revoke req (revokeStart req)))
  | .validate req => some (s.add (.validate req (s.validateStart req)))
  | .next i draw => do
    let request ← s.requests.get? i
    match request with
    | .authorize req stage => s.authorizeNext rt i req draw stage
    | .exchange req stage => s.exchangeNext sha256 i req draw stage
    | .refresh req stage => s.refreshNext i req draw stage
    | .revoke req stage => s.revokeNext i req draw stage
    | .validate req stage => s.validateNext i req stage

end GrantState

end PetaCore
