import PetaCore.Core.OAuthGrants
import PetaCore.ForStd.Json

/-!
# Access tokens

`generateAccessToken` of `OAuthService`, and the two statements that store what it makes in the
unique column `access_token`: the insert of `handleAuthorizationCodeGrant` and the update of
`handleRefreshTokenGrant`. An access token is the signature of a payload, so the same payload gives
the same token again, and a statement that would store it in a second record fails.

`jwt.sign` is a parameter. One statement reads the clock once.
-/

namespace PetaCore

/-- The object that `generateAccessToken` signs. -/
def TokenPayload.toJson (p : TokenPayload) : Json :=
  .obj ([("type", .str p.type), ("client_id", .str p.clientId), ("user_id", .str p.userId),
    ("scopes", .arr (p.scopes.map Json.str)), ("iat", .num (.ofNat p.iat)),
    ("exp", .num (.ofNat p.exp))] ++
    match p.aud with
    | some aud => [("aud", .str aud)]
    | none => [])

/-- `generateAccessToken` -/
def OAuth.generateAccessToken (sign : Json → String) (clientId userId : String)
    (scopes : List String) (resource : Option String) (now : Nat) : String :=
  sign (payload clientId userId scopes resource now).toJson

/-- The answer to an exception. -/
def OAuth.serverError : OAuthError := ⟨500, "server_error", "Internal server error"⟩

namespace GrantState

open OAuth

/-- Whether the access token stands in another record than that of the number. -/
def tokenTaken (s : GrantState) (tokenId : Nat) (accessToken : String) : Bool :=
  s.tokens.any fun i record => i ≠ tokenId && record.accessToken = accessToken

/-- `oAuthToken.create` refuses a record whose client is not registered (`@relation`). -/
def isRegistered (s : GrantState) (clientId : String) : Bool :=
  s.clients.any fun client => client.clientId = clientId

/-- `handleAuthorizationCodeGrant` from `generateAccessToken` on. -/
def createTokens (sign : Json → String) (s : GrantState) (i : Nat) (req : ExchangeRequest)
    (draw : Draw) (client : OAuthClient) (row : AuthorizationCode) : Option GrantState :=
  if draw.random ∈ s.drawn then none
  else
    let accessToken := generateAccessToken sign row.clientId row.userId row.scopes row.resource s.now
    let issueRefreshToken := "refresh_token" ∈ client.grantTypes
    let s := { s with
      signed := s.signed ++
        [(accessToken, payload row.clientId row.userId row.scopes row.resource s.now)]
      drawn := s.drawn ++ [draw.random] }
    if s.tokenTaken s.tokens.next accessToken || !s.isRegistered row.clientId then
      some (s.put i (.exchange req (.failed serverError)))
    else
      let record : OAuthToken :=
        { tokenId := s.tokens.next
          accessToken
          refreshToken := if issueRefreshToken then some draw.random else none
          clientId := row.clientId
          userId := row.userId
          scopes := row.scopes
          resource := row.resource
          accessTokenExpiresAt := s.now + accessTokenLifetime
          refreshTokenExpiresAt :=
            if issueRefreshToken then some (s.now + refreshTokenLifetime) else none
          revoked := false }
      some (({ s with tokens := s.tokens.add record }.log
          (.issued row record.tokenId accessToken)).put i (.exchange req (.answered record)))

/-- `handleRefreshTokenGrant` from `generateAccessToken` on. -/
def updateToken (sign : Json → String) (s : GrantState) (i : Nat) (req : RefreshRequest)
    (record : OAuthToken) (newScopes : List String) : Option GrantState :=
  let newAccessToken :=
    generateAccessToken sign record.clientId record.userId newScopes record.resource s.now
  let s := { s with
    signed := s.signed ++
      [(newAccessToken, payload record.clientId record.userId newScopes record.resource s.now)] }
  match s.tokens.get? record.tokenId with
  | none => some (s.put i (.refresh req (.failed serverError)))
  | some current =>
    if s.tokenTaken record.tokenId newAccessToken then
      some (s.put i (.refresh req (.failed serverError)))
    else
      some (({ s with
          tokens := s.tokens.put record.tokenId
            { current with
              accessToken := newAccessToken
              accessTokenExpiresAt := s.now + accessTokenLifetime
              scopes := newScopes } }.log
            (.refreshed record.tokenId newAccessToken)).put i
        (.refresh req (.answered newAccessToken newScopes)))

/-- A step of which the access token is signed, and not drawn. -/
def signStep (rt : UrlRuntime) (sha256 : String → String) (sign : Json → String)
    (s : GrantState) (a : GrantAction) : Option GrantState :=
  match a with
  | .next i draw =>
    match s.requests.get? i with
    | some (.exchange req (.creating client row)) => s.createTokens sign i req draw client row
    | some (.refresh req (.updating record newScopes)) =>
      s.updateToken sign i req record newScopes
    | _ => s.step rt sha256 a
  | _ => s.step rt sha256 a

end GrantState

end PetaCore
