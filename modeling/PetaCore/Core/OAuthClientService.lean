import PetaCore.Core.ClientMetadata
import PetaCore.Core.OAuthGrants

/-!
# The client service

`registerClient` and `getClientForIssuer` of `OAuthClientService` over the table `oauth_clients`, and
`getAuthorizationClient` of `OAuthController`, which uses both.

A table is the list of its rows, of which no two have the same id. What a document's URL gives, the
random values and the clock come from outside. An error is given by its message.
-/

namespace PetaCore

/-- A row of `oauth_clients`. -/
structure OAuthClientRecord where
  clientId : String
  issuer : String
  clientSecret : Option String
  applicationType : String
  tokenEndpointAuthMethod : String
  name : String
  redirectUris : List String
  scopes : List String
  grantTypes : List String
  responseTypes : List String
  userId : Option String
  trusted : Bool
  createdAt : Nat
  updatedAt : Nat
deriving DecidableEq

structure OAuthClientInformation where
  clientId : String
  issuer : String
  clientSecret : Option String
  clientName : String
  applicationType : String
  redirectUris : List String
  grantTypes : List String
  responseTypes : List String
  scopes : List String
  tokenEndpointAuthMethod : String
  trusted : Bool
  createdAt : Nat
  updatedAt : Nat
deriving DecidableEq

/-- What a registration gets from outside. -/
structure RegistrationRuntime where
  /-- `new URL` -/
  parse : String → Option Url
  /-- the document at a URL, or what is said of its absence -/
  fetch : String → Except String Json
  /-- `generateClientId` -/
  clientId : String
  /-- `generateClientSecret` -/
  clientSecret : String
  now : Nat

namespace OAuthClientService

open OAuth ClientMetadata

/-- `MCP_OAUTH_SCOPES` -/
def mcpOAuthScopes : List String := ["mcp:tools", "mcp:resources", "mcp:prompts"]

def defaultGrantTypes : List String := ["authorization_code", "refresh_token"]

/-- The answer to a registration, from a row. -/
def information (client : OAuthClientRecord) (clientSecret : Option String) :
    OAuthClientInformation :=
  { clientId := client.clientId
    issuer := client.issuer
    clientSecret
    clientName := client.name
    applicationType := client.applicationType
    redirectUris := client.redirectUris
    grantTypes := client.grantTypes
    responseTypes := client.responseTypes
    scopes := client.scopes
    tokenEndpointAuthMethod := client.tokenEndpointAuthMethod
    trusted := client.trusted
    createdAt := client.createdAt
    updatedAt := client.updatedAt }

/-- `toClientInformation` with the secret -/
def toClientInformation (client : Option OAuthClientRecord) : Option OAuthClientInformation :=
  client.map fun client => information client (given client.clientSecret)

/-- The row of an id and an issuer. -/
def findFirst (clients : List OAuthClientRecord) (clientId issuer : String) :
    Option OAuthClientRecord :=
  clients.find? fun client => client.clientId = clientId && client.issuer = issuer

def findUnique (clients : List OAuthClientRecord) (clientId : String) : Option OAuthClientRecord :=
  clients.find? fun client => client.clientId = clientId

def getClientForIssuer (clients : List OAuthClientRecord) (clientId issuer : String) :
    Option OAuthClientInformation :=
  match findFirst clients clientId issuer with
  | some client => toClientInformation (some client)
  | none =>
    if issuer = "default" then none
    else toClientInformation (findFirst clients clientId "default")

/-! ## Registration -/

def isUrlBased (clientId : String) : Bool := "https://".toList.isPrefixOf clientId.toList

def scopesForUrlBasedClient (metadata : OAuthClientMetadata) : List String :=
  match metadata.scope with
  | some scope => parseScope (some scope)
  | none => mcpOAuthScopes

def isLegacyUrlBasedDefaultScopes (scopes : List String) : Bool := scopes = ["mcp:tools"]

/-- `reconcileUrlBasedClientScopes`, with the row that it returns. -/
def reconcileUrlBasedClientScopes (clients : List OAuthClientRecord) (now : Nat)
    (client : OAuthClientRecord) (metadata : OAuthClientMetadata) :
    List OAuthClientRecord × OAuthClientRecord :=
  if metadata.scope.isSome then (clients, client)
  else if !isLegacyUrlBasedDefaultScopes client.scopes then (clients, client)
  else
    let updated := { client with scopes := mcpOAuthScopes, updatedAt := now }
    (clients.map fun row => if row.clientId = client.clientId then updated else row, updated)

/-- The row that is created for a URL. -/
def urlBasedRecord (rt : RegistrationRuntime) (clientId issuer : String)
    (metadata : OAuthClientMetadata) : OAuthClientRecord :=
  { clientId
    issuer
    clientSecret := none
    applicationType := metadata.applicationType.getD "web"
    tokenEndpointAuthMethod := metadata.tokenEndpointAuthMethod.getD "none"
    name := metadata.clientName
    redirectUris := metadata.redirectUris
    scopes := scopesForUrlBasedClient metadata
    grantTypes := metadata.grantTypes.getD defaultGrantTypes
    responseTypes := metadata.responseTypes.getD ["code"]
    userId := none
    trusted := false
    createdAt := rt.now
    updatedAt := rt.now }

/-- `registerClient` for the URL of a document. -/
def registerUrlBasedClient (rt : RegistrationRuntime) (clients : List OAuthClientRecord)
    (providedClientId issuer : String) :
    List OAuthClientRecord × Except String OAuthClientInformation :=
  match fetchAndValidateClientMetadata rt.parse rt.fetch providedClientId with
  | .error e => (clients, .error (e.error ++ ": " ++ e.errorDescription))
  | .ok fetchedMetadata =>
    match findFirst clients providedClientId issuer with
    | some existingClient =>
      let (clients, reconciledClient) :=
        reconcileUrlBasedClientScopes clients rt.now existingClient fetchedMetadata
      (clients, .ok (information reconciledClient none))
    | none =>
      if (findUnique clients providedClientId).isSome then
        (clients,
          .error "invalid_client_metadata: client_id is already registered for a different issuer")
      else
        let client := urlBasedRecord rt providedClientId issuer fetchedMetadata
        (clients ++ [client], .ok (information client none))

/-- A value that is a text or falsy, where any other raises an exception. -/
def textOrFalsy (value : Option Json) : Except String (Option String) :=
  match value with
  | none | some .null | some (.bool false) => .ok none
  | some (.str s) => .ok (some s)
  | some (.num n) => if n.mantissa = 0 then .ok none else .error "TypeError"
  | some _ => .error "TypeError"

/-- A list of texts that has been checked. -/
def textsOr (value : Option Json) (default : List String) : List String :=
  match value with
  | some (.arr items) => items.filterMap fun
    | .str s => some s
    | _ => none
  | _ => default

/-- A text that has been checked. -/
def textOr (value : Option Json) (default : String) : String :=
  match value with
  | some (.str s) => if s = "" then default else s
  | _ => default

/-- `registerClient` for a body. -/
def registerTraditionalClient (rt : RegistrationRuntime) (clients : List OAuthClientRecord)
    (metadata : List (String × Json)) (issuer : String) :
    List OAuthClientRecord × Except String OAuthClientInformation :=
  let checked : Except String OAuthClientRecord := do
    let redirectUris ← validateClientMetadata rt.parse metadata
    let authMethod := textOr (metadata.lookup "token_endpoint_auth_method") "client_secret_post"
    let scope ← textOrFalsy (metadata.lookup "scope")
    let clientName ← textOrFalsy (metadata.lookup "client_name")
    .ok
      { clientId := rt.clientId
        issuer
        clientSecret := if authMethod = "none" then none else some rt.clientSecret
        applicationType := textOr (metadata.lookup "application_type") "web"
        tokenEndpointAuthMethod := authMethod
        name := (given clientName).getD ("Client " ++ rt.clientId)
        redirectUris
        scopes := parseScope scope
        grantTypes := textsOr (metadata.lookup "grant_types") defaultGrantTypes
        responseTypes := textsOr (metadata.lookup "response_types") ["code"]
        userId := none
        trusted := false
        createdAt := rt.now
        updatedAt := rt.now }
  match checked with
  | .error message => (clients, .error message)
  | .ok client => (clients ++ [client], .ok (information client client.clientSecret))

/-- `registerClient` -/
def registerClient (rt : RegistrationRuntime) (clients : List OAuthClientRecord)
    (metadata : List (String × Json)) (issuer : String) :
    List OAuthClientRecord × Except String OAuthClientInformation :=
  match metadata.lookup "client_id" with
  | some (.str providedClientId) =>
    if isUrlBased providedClientId then registerUrlBasedClient rt clients providedClientId issuer
    else registerTraditionalClient rt clients metadata issuer
  | _ => registerTraditionalClient rt clients metadata issuer

/-- A registration, with what it gets from outside. -/
structure Registration where
  fetch : String → Except String Json
  clientId : String
  clientSecret : String
  now : Nat
  metadata : List (String × Json)
  issuer : String

/-- The table after a registration. -/
def step (parse : String → Option Url) (clients : List OAuthClientRecord) (r : Registration) :
    Option (List OAuthClientRecord) :=
  some (registerClient ⟨parse, r.fetch, r.clientId, r.clientSecret, r.now⟩ clients r.metadata
    r.issuer).1

/-! ## The authorization endpoint -/

/-- `getAuthorizationClient` -/
def getAuthorizationClient (rt : RegistrationRuntime) (clients : List OAuthClientRecord)
    (clientId : Json) (issuer : String) :
    List OAuthClientRecord × Except String (Option OAuthClientInformation) :=
  match clientId with
  | .str clientId =>
    if isUrlBased clientId then
      let (clients, answer) :=
        registerClient rt clients [("client_id", .str clientId), ("redirect_uris", .arr [])] issuer
      (clients, answer.map some)
    else (clients, .ok (getClientForIssuer clients clientId issuer))
  | _ => (clients, .ok none)

end OAuthClientService

end PetaCore
