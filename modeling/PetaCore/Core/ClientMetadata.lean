import PetaCore.Core.OAuth
import PetaCore.ForStd.Json
import PetaCore.ForStd.Url

/-!
# Client metadata

What a client may be registered with: `validateClientMetadata` of `OAuthClientService` for a body of
`/register`, and `ClientMetadataValidator` for a document that the URL of a client names; and which
redirect URIs `OAuthService` then accepts.

A body and a document are given by their members. The platform's parser of URLs is a parameter.
-/

namespace PetaCore

/-- `OAuthClientMetadata`, as far as a registration reads it. -/
structure OAuthClientMetadata where
  clientId : String
  clientName : String
  redirectUris : List String
  applicationType : Option String
  scope : Option String
  tokenEndpointAuthMethod : Option String
  grantTypes : Option (List String)
  responseTypes : Option (List String)
deriving DecidableEq

/-- `String(value)` -/
def jsonText : Json → String
  | .null => "null"
  | .bool true => "true"
  | .bool false => "false"
  | .num n => String.ofList n.toChars
  | .str s => s
  | .arr items => ",".intercalate (itemsText items)
  | .obj _ => "[object Object]"
where
  itemsText : List Json → List String
    | [] => []
    | .null :: items => "" :: itemsText items
    | item :: items => jsonText item :: itemsText items

namespace ClientMetadata

/-- The items of a list of non-empty texts. -/
def nonEmptyStrings? : List Json → Option (List String)
  | [] => some []
  | .str s :: items => if s = "" then none else (nonEmptyStrings? items).map (s :: ·)
  | _ :: _ => none

def supportedGrantTypes : List String := ["authorization_code", "refresh_token"]

/-! ## A body of `/register` -/

/-- `validateApplicationType` -/
def validateApplicationType : Option Json → Except String Unit
  | none | some (.str "web") | some (.str "native") => .ok ()
  | some applicationType =>
    .error ("invalid_client_metadata: Unsupported application_type: " ++ jsonText applicationType)

/-- `validateStringArray` -/
def validateStringArray (value : Option Json) (field : String) : Except String (List String) :=
  match value with
  | none => .ok []
  | some (.arr items) =>
    match nonEmptyStrings? items with
    | some value => .ok value
    | none =>
      .error ("invalid_client_metadata: " ++ field ++ " must contain only non-empty strings")
  | some _ => .error ("invalid_client_metadata: " ++ field ++ " must be an array")

/-- Whether `validateClientMetadata` accepts the URL of a redirect URI. -/
def acceptsUrl (u : Url) : Bool :=
  !(u.protocol ≠ "https:" && u.hostname ≠ "localhost" && u.hostname ≠ "127.0.0.1" &&
    u.hostname ≠ "[::1]")

/-- What `validateClientMetadata` asks of an item of `redirect_uris`. -/
def checkRedirectUri (parse : String → Option Url) : Json → Except String String
  | .str redirectUri =>
    if redirectUri = "" then
      .error "invalid_client_metadata: redirect_uris must contain only non-empty strings"
    else if (parse redirectUri).any acceptsUrl then .ok redirectUri
    else .error ("invalid_redirect_uri: Invalid redirect_uri: " ++ redirectUri)
  | _ => .error "invalid_client_metadata: redirect_uris must contain only non-empty strings"

/-- What `validateClientMetadata` asks of `redirect_uris`. -/
def checkRedirectUris (parse : String → Option Url) : Option Json → Except String (List String)
  | some (.arr (item :: items)) => (item :: items).mapM (checkRedirectUri parse)
  | _ => .error "invalid_client_metadata: redirect_uris must be a non-empty array"

/-- What `validateClientMetadata` asks of `grant_types` and of `response_types`. -/
def checkSupported (metadata : List (String × Json)) (field : String) (supported : List String) :
    Except String Unit := do
  let values ← validateStringArray (metadata.lookup field) field
  let invalid := values.filter (· ∉ supported)
  if invalid = [] then .ok ()
  else .error ("invalid_client_metadata: Unsupported " ++ field ++ ": " ++ ", ".intercalate invalid)

def checkAuthMethod : Option Json → Except String Unit
  | none | some (.str "client_secret_basic") | some (.str "client_secret_post")
  | some (.str "none") => .ok ()
  | some authMethod =>
    .error ("invalid_client_metadata: Unsupported token_endpoint_auth_method: " ++
      jsonText authMethod)

/-- `validateClientMetadata`; the redirect URIs that it has seen. -/
def validateClientMetadata (parse : String → Option Url) (metadata : List (String × Json)) :
    Except String (List String) := do
  validateApplicationType (metadata.lookup "application_type")
  let redirectUris ← checkRedirectUris parse (metadata.lookup "redirect_uris")
  checkSupported metadata "grant_types" supportedGrantTypes
  checkSupported metadata "response_types" ["code"]
  checkAuthMethod (metadata.lookup "token_endpoint_auth_method")
  .ok redirectUris

/-! ## A document -/

/-- `error` and `errorDescription` -/
structure MetadataError where
  error : String
  errorDescription : String
deriving DecidableEq

def invalidMetadata (errorDescription : String) : MetadataError :=
  ⟨"invalid_client_metadata", errorDescription⟩

/-- `optionalStringArray` -/
def optionalStringArray (value : Option Json) (field : String) :
    Except MetadataError (List String) :=
  match value with
  | none => .ok []
  | some (.arr items) =>
    match nonEmptyStrings? items with
    | some value => .ok value
    | none =>
      .error (invalidMetadata
        (if field = "redirect_uris" then "All redirect_uris must be non-empty strings"
        else field ++ " must contain only non-empty strings"))
  | some _ => .error (invalidMetadata (field ++ " must be an array"))

/-- `requiredStringArray` -/
def requiredStringArray (value : Option Json) (field : String) :
    Except MetadataError (List String) := do
  let parsed ← optionalStringArray value field
  if parsed = [] then
    .error (invalidMetadata (field ++ " is required and must be a non-empty array"))
  else .ok parsed

/-- The three names of the loopback host. -/
def isLoopbackHost (hostname : String) : Bool :=
  hostname = "localhost" || hostname = "127.0.0.1" || hostname = "[::1]"

def isLoopbackHttpRedirect (url : Url) : Bool :=
  if url.protocol ≠ "http:" then false else isLoopbackHost url.hostname.toLower

/-- `validateRedirectUri` of `ClientMetadataValidator` -/
def validateDocumentUri (parse : String → Option Url) (uri : String) : Except MetadataError Unit :=
  match parse uri with
  | some parsed =>
    if parsed.protocol = "https:" || isLoopbackHttpRedirect parsed then .ok ()
    else .error ⟨"invalid_redirect_uri", "Invalid redirect_uri: " ++ uri⟩
  | none => .error ⟨"invalid_redirect_uri", "Invalid redirect_uri: " ++ uri⟩

def requiredString (value : Option Json) (field : String) : Except MetadataError String :=
  match value with
  | some (.str s) =>
    if s = "" then
      .error (invalidMetadata (field ++ " is required and must be a non-empty string"))
    else .ok s
  | _ => .error (invalidMetadata (field ++ " is required and must be a non-empty string"))

/-- What `validateMetadata` asks of `grant_types` and of `response_types`. -/
def supportedStrings (metadata : List (String × Json)) (field : String) (supported : List String) :
    Except MetadataError (List String) := do
  let values ← optionalStringArray (metadata.lookup field) field
  let unsupported := values.filter (· ∉ supported)
  if unsupported = [] then .ok values
  else .error (invalidMetadata ("Unsupported " ++ field ++ ": " ++ ", ".intercalate unsupported))

def documentAuthMethod : Option Json → Except MetadataError (Option String)
  | none => .ok none
  | some (.str "none") => .ok (some "none")
  | some method =>
    .error (invalidMetadata ("Unsupported token_endpoint_auth_method: " ++ jsonText method))

def documentApplicationType : Option Json → Except MetadataError (Option String)
  | none => .ok none
  | some (.str "web") => .ok (some "web")
  | some (.str "native") => .ok (some "native")
  | some applicationType =>
    .error (invalidMetadata ("Unsupported application_type: " ++ jsonText applicationType))

/-- `validateMetadata` -/
def validateMetadata (parse : String → Option Url) :
    Json → Except MetadataError OAuthClientMetadata
  | .obj metadata => do
    let clientId ← requiredString (metadata.lookup "client_id") "client_id"
    let clientName ← requiredString (metadata.lookup "client_name") "client_name"
    let redirectUris ← requiredStringArray (metadata.lookup "redirect_uris") "redirect_uris"
    redirectUris.forM (validateDocumentUri parse)
    let grantTypes ← supportedStrings metadata "grant_types" supportedGrantTypes
    let responseTypes ← supportedStrings metadata "response_types" ["code"]
    let tokenEndpointAuthMethod ←
      documentAuthMethod (metadata.lookup "token_endpoint_auth_method")
    let applicationType ← documentApplicationType (metadata.lookup "application_type")
    .ok
      { clientId
        clientName
        redirectUris
        applicationType
        scope :=
          match metadata.lookup "scope" with
          | some (.str scope) => some scope
          | _ => none
        tokenEndpointAuthMethod
        grantTypes := if grantTypes = [] then none else some grantTypes
        responseTypes := if responseTypes = [] then none else some responseTypes }
  | _ => .error (invalidMetadata "Client metadata must be a JSON object")

/-- `validateClientMetadataUrl` -/
def validateClientMetadataUrl (parse : String → Option Url) (url : String) : Except String Unit :=
  match parse url with
  | none => .error "Invalid URL format: Invalid URL"
  | some parsedUrl =>
    if parsedUrl.protocol ≠ "https:" then .error "Client metadata URL must use HTTPS protocol"
    else if parsedUrl.path = "/" ∨ parsedUrl.path = "" then
      .error ("Client metadata URL pathname cannot be root (\"/\"), " ++
        "must specify a document path")
    else .ok ()

/-- `fetchAndValidateClientMetadata` -/
def fetchAndValidateClientMetadata (parse : String → Option Url)
    (fetch : String → Except String Json) (clientMetadataUrl : String) :
    Except MetadataError OAuthClientMetadata := do
  (validateClientMetadataUrl parse clientMetadataUrl).mapError invalidMetadata
  let document ← (fetch clientMetadataUrl).mapError invalidMetadata
  let metadata ← validateMetadata parse document
  if metadata.clientId ≠ clientMetadataUrl then
    .error (invalidMetadata
      "client_id in metadata must exactly match the client metadata document URL")
  else .ok metadata

/-! ## Redirect URIs -/

/-- `loopbackRedirectPortAgnosticKeyFromUrl` -/
def loopbackKeyFromUrl (url : Url) : Option String :=
  if url.protocol ≠ "http:" then none
  else if !isLoopbackHost url.hostname.toLower then none
  else some url.clearPort.href

def loopbackRedirectPortAgnosticKey (parse : String → Option Url) (redirectUri : String) :
    Option String :=
  (parse redirectUri).bind loopbackKeyFromUrl

def portlessLoopbackRedirectKey (parse : String → Option Url) (redirectUri : String) :
    Option String :=
  (parse redirectUri).bind fun url => if url.port ≠ none then none else loopbackKeyFromUrl url

/-- What `validateRedirectUri` of `OAuthService` reads of URLs. -/
def urlRuntime (parse : String → Option Url) : UrlRuntime :=
  ⟨loopbackRedirectPortAgnosticKey parse, portlessLoopbackRedirectKey parse⟩

end ClientMetadata

end PetaCore
