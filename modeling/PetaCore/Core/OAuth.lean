import Mathlib.Data.List.Basic

/-!
# OAuth

The authorization codes of the gateway: what a client may ask for, and what
`completeAuthorizationGrant` makes of it.

A redirect is given by what its URL is built from. A redirect URI that has been accepted is a URL,
since only URLs are registered.
-/

namespace PetaCore

/-- `OAuthClientInformation` -/
structure OAuthClient where
  clientId : String
  issuer : String
  clientSecret : Option String
  redirectUris : List String
  scopes : List String
  grantTypes : List String
  responseTypes : List String
  tokenEndpointAuthMethod : String
deriving DecidableEq

/-- `DeskAuthorizationParams` -/
structure AuthorizationParams where
  clientId : String
  redirectUri : String
  scope : Option String
  state : Option String
  codeChallenge : Option String
  codeChallengeMethod : Option String
  resource : Option String
deriving DecidableEq

/-- A row of `oauth_authorization_codes`. -/
structure AuthorizationCode where
  code : String
  clientId : String
  userId : String
  redirectUri : String
  scopes : List String
  codeChallenge : Option String
  challengeMethod : Option String
  resource : Option String
  expiresAt : Nat
  used : Bool
deriving DecidableEq

/-- The URLs of `buildSuccessRedirectUrl` and `buildErrorRedirectUrl`. -/
inductive Redirect where
  | success (redirectUri code : String) (state : Option String) (issuer : String)
  | error (redirectUri error errorDescription : String) (state : Option String)
deriving DecidableEq

/-- What the platform's `URL` makes of a redirect URI:
    `loopbackRedirectPortAgnosticKey` and `portlessLoopbackRedirectKey`. -/
structure UrlRuntime where
  loopbackRedirectPortAgnosticKey : String → Option String
  portlessLoopbackRedirectKey : String → Option String

namespace OAuth

/-- `AUTHORIZATION_CODE_LIFETIME`, in milliseconds. -/
def authorizationCodeLifetime : Nat := 600 * 1000

/-- `ACCESS_TOKEN_LIFETIME`, in milliseconds. -/
def accessTokenLifetime : Nat := 3600 * 1000

/-- `REFRESH_TOKEN_LIFETIME`, in milliseconds. -/
def refreshTokenLifetime : Nat := 2592000 * 1000

def parseScope (scopeString : Option String) : List String :=
  match scopeString with
  | none | some "" => ["mcp:tools"]
  | some scopeString =>
    ((scopeString.toList.splitOn ' ').filter fun s => !s.isEmpty).map String.ofList

def isScopeSubset (requestedScopes originalScopes : List String) : Bool :=
  requestedScopes.all fun scope => scope ∈ originalScopes

def hasS256PKCE (codeChallenge codeChallengeMethod : Option String) : Bool :=
  codeChallenge.any (· ≠ "") && codeChallengeMethod = some "S256"

def validateRedirectUri (rt : UrlRuntime) (redirectUri : String) (allowedUris : List String) :
    Bool :=
  if redirectUri ∈ allowedUris then true
  else
    match rt.loopbackRedirectPortAgnosticKey redirectUri with
    | none => false
    | some requestedLoopback =>
      allowedUris.any fun allowedUri =>
        rt.portlessLoopbackRedirectKey allowedUri = some requestedLoopback

/-- What `completeAuthorizationGrant` asks of the client, with the messages of its errors. -/
def checkClient (rt : UrlRuntime) (params : AuthorizationParams) :
    Option OAuthClient → Except String OAuthClient
  | none => .error "invalid_client: Client not found"
  | some client =>
    if "code" ∉ client.responseTypes then
      .error "unsupported_response_type: Client is not registered for authorization code response"
    else if !validateRedirectUri rt params.redirectUri client.redirectUris then
      .error "invalid_request: Invalid redirect_uri"
    else if !hasS256PKCE params.codeChallenge params.codeChallengeMethod then
      .error "invalid_request: S256 code_challenge and code_challenge_method are required"
    else .ok client

/-- What `completeAuthorizationGrant` does for a user: it answers with an error, or creates a
    code. -/
def grant (client : OAuthClient) (params : AuthorizationParams) (userId code publicUrl : String)
    (now : Nat) : Except Redirect AuthorizationCode :=
  let scopes := parseScope params.scope
  if !isScopeSubset scopes client.scopes then
    .error (.error params.redirectUri "invalid_scope"
      "Requested scope exceeds registered client scopes" params.state)
  else if params.resource.any fun resource => resource ≠ "" ∧ resource ≠ publicUrl then
    .error (.error params.redirectUri "invalid_target" "Unsupported resource" params.state)
  else
    .ok
      { code
        clientId := params.clientId
        userId
        redirectUri := params.redirectUri
        scopes
        codeChallenge := params.codeChallenge
        challengeMethod := params.codeChallengeMethod
        resource := some publicUrl
        expiresAt := now + authorizationCodeLifetime
        used := false }

/-- The redirect for a code that has been created. -/
def successRedirect (params : AuthorizationParams) (issuer : String) (row : AuthorizationCode) :
    Redirect :=
  .success params.redirectUri row.code params.state issuer

/-- A text before and after its first `": "`. -/
def breakColon : List Char → Option (List Char × List Char)
  | [] => none
  | ':' :: ' ' :: cs => some ([], cs)
  | c :: cs => (breakColon cs).map fun p => (c :: p.1, p.2)

/-- `colonErrorCode` and `colonErrorDescription` -/
def colonError (message : String) : String × String :=
  match breakColon message.toList with
  | none => (message, message)
  | some (code, description) => (String.ofList code, String.ofList description)

/-- `isClientMetadataError` and `isAuthorizationEndpointError` -/
def isOAuthError (message : String) : Bool :=
  ["invalid_client_metadata:", "invalid_redirect_uri:", "invalid_client:",
    "unsupported_response_type:", "invalid_request:"].any
      fun start => start.toList.isPrefixOf message.toList

/-- The code and the description that an error is answered with. -/
def errorAnswer (message : String) : String × String :=
  if isOAuthError message then colonError message else ("server_error", "Internal server error")

end OAuth

end PetaCore
