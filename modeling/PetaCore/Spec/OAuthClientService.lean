import PetaCore.Core.OAuthClientService
import Mathlib.Data.List.Nodup

/-!
# The client at the endpoints

The authorization endpoint looks up the URL of a client by registering it, the other endpoints by
`getClientForIssuer`, which also finds the rows of the legacy issuer.

## Key results

- `getClientForIssuer_eq`: which rows the other endpoints find
- `registerUrlBasedClient_eq`: which rows the authorization endpoint finds
- `same_client_iff`: the endpoints agree unless a URL client of the legacy issuer meets a request for
  another
-/

namespace PetaCore

namespace OAuthClientService

open OAuth ClientMetadata

/-- No two rows have the same id. -/
def IdsUnique (clients : List OAuthClientRecord) : Prop :=
  (clients.map (·.clientId)).Nodup

section

variable {clients : List OAuthClientRecord} {record : OAuthClientRecord} {issuer : String}

theorem eq_of_clientId (hids : IdsUnique clients) (hrecord : record ∈ clients)
    {other : OAuthClientRecord} (hother : other ∈ clients)
    (h : other.clientId = record.clientId) : other = record :=
  List.inj_on_of_nodup_map hids hother hrecord h

/-- A search by id and a further condition gives the row of the id or nothing. -/
theorem find?_clientId (hids : IdsUnique clients) (hrecord : record ∈ clients)
    (q : OAuthClientRecord → Bool) :
    clients.find? (fun client => client.clientId = record.clientId && q client) =
      if q record then some record else none := by
  cases hfind : clients.find? (fun client => client.clientId = record.clientId && q client) with
  | none =>
    have hnot := List.find?_eq_none.mp hfind record hrecord
    simp only [decide_true, Bool.true_and] at hnot
    rw [if_neg hnot]
  | some client =>
    have hmem := List.mem_of_find?_eq_some hfind
    have hsome := List.find?_some hfind
    simp only [Bool.and_eq_true, decide_eq_true_eq] at hsome
    obtain rfl := eq_of_clientId hids hrecord hmem hsome.1
    rw [if_pos hsome.2]

theorem findFirst_eq (hids : IdsUnique clients) (hrecord : record ∈ clients) :
    findFirst clients record.clientId issuer =
      if record.issuer = issuer then some record else none := by
  rw [findFirst, find?_clientId hids hrecord fun client => client.issuer = issuer]
  simp

theorem findUnique_eq (hids : IdsUnique clients) (hrecord : record ∈ clients) :
    findUnique clients record.clientId = some record := by
  have hfind := find?_clientId hids hrecord fun _ => true
  simpa [findUnique] using hfind

/-- The other endpoints find the rows of the issuer and those of the legacy issuer. -/
theorem getClientForIssuer_eq (hids : IdsUnique clients) (hrecord : record ∈ clients) :
    getClientForIssuer clients record.clientId issuer =
      if record.issuer = issuer ∨ record.issuer = "default" then
        some (information record (given record.clientSecret))
      else none := by
  rw [getClientForIssuer, findFirst_eq hids hrecord, findFirst_eq hids hrecord]
  by_cases hissuer : record.issuer = issuer
  · simp [hissuer, toClientInformation]
  rw [if_neg hissuer]
  by_cases hdefault : record.issuer = "default"
  · have hne : issuer ≠ "default" := fun heq => hissuer (hdefault.trans heq.symm)
    simp [hdefault, hne, toClientInformation]
  · simp [hissuer, hdefault, toClientInformation]

/-! ## The authorization endpoint -/

/-- What `reconcileUrlBasedClientScopes` leaves of the table: the row of the id, perhaps with other
    scopes, among rows with the same ids. -/
structure Reconciled (record : OAuthClientRecord) (clients : List OAuthClientRecord)
    (out : List OAuthClientRecord × OAuthClientRecord) : Prop where
  ids : out.1.map (·.clientId) = clients.map (·.clientId)
  mem : out.2 ∈ out.1
  clientId : out.2.clientId = record.clientId
  issuer : out.2.issuer = record.issuer

theorem reconciled (hrecord : record ∈ clients) (now : Nat) (metadata : OAuthClientMetadata) :
    Reconciled record clients (reconcileUrlBasedClientScopes clients now record metadata) := by
  unfold reconcileUrlBasedClientScopes
  split
  · exact ⟨rfl, hrecord, rfl, rfl⟩
  split
  · exact ⟨rfl, hrecord, rfl, rfl⟩
  · refine ⟨?_, ?_, rfl, rfl⟩
    · simp only [List.map_map]
      apply List.map_congr_left
      intro row _
      simp only [Function.comp_apply]
      split
      · next heq => exact heq.symm
      · rfl
    · exact List.mem_map.mpr ⟨record, hrecord, if_pos rfl⟩

/-- The authorization endpoint finds the rows of the issuer alone. -/
theorem registerUrlBasedClient_eq (rt : RegistrationRuntime) (hids : IdsUnique clients)
    (hrecord : record ∈ clients) {metadata : OAuthClientMetadata}
    (hfetch : fetchAndValidateClientMetadata rt.parse rt.fetch record.clientId = .ok metadata) :
    registerUrlBasedClient rt clients record.clientId issuer =
      if record.issuer = issuer then
        ((reconcileUrlBasedClientScopes clients rt.now record metadata).1,
          .ok (information (reconcileUrlBasedClientScopes clients rt.now record metadata).2 none))
      else
        (clients,
          .error "invalid_client_metadata: client_id is already registered for a different issuer")
    := by
  rw [registerUrlBasedClient, hfetch]
  simp only [findFirst_eq hids hrecord, findUnique_eq hids hrecord]
  by_cases hissuer : record.issuer = issuer
  · rw [if_pos hissuer, if_pos hissuer]
  · rw [if_neg hissuer, if_neg hissuer]
    rfl

/-! ## Agreement -/

/-- The secret is not part of the answer to a registration. -/
def withoutSecret (client : OAuthClientInformation) : OAuthClientInformation :=
  { client with clientSecret := none }

/-- The client that the authorization endpoint goes on with. -/
def resolved (answer : Except String (Option OAuthClientInformation)) :
    Option OAuthClientInformation :=
  match answer with
  | .ok client => client
  | .error _ => none

/-- The authorization endpoint resolves the client that the other endpoints resolve afterwards, and
    the one that they would have resolved before. -/
structure Agrees (rt : RegistrationRuntime) (clients : List OAuthClientRecord)
    (clientId issuer : String) : Prop where
  after : (resolved (getAuthorizationClient rt clients (.str clientId) issuer).2).map withoutSecret =
    (getClientForIssuer (getAuthorizationClient rt clients (.str clientId) issuer).1 clientId
      issuer).map withoutSecret
  before : (resolved (getAuthorizationClient rt clients (.str clientId) issuer).2).map (·.clientId) =
    (getClientForIssuer clients clientId issuer).map (·.clientId)

theorem getAuthorizationClient_urlBased (rt : RegistrationRuntime) {clientId : String}
    (hurl : isUrlBased clientId = true) :
    getAuthorizationClient rt clients (.str clientId) issuer =
      ((registerUrlBasedClient rt clients clientId issuer).1,
        (registerUrlBasedClient rt clients clientId issuer).2.map some) := by
  have hlookup : List.lookup "client_id"
      [("client_id", Json.str clientId), ("redirect_uris", .arr [])] = some (.str clientId) := rfl
  simp only [getAuthorizationClient, hurl, if_true, registerClient, hlookup]

theorem agrees_of_not_urlBased (rt : RegistrationRuntime) {clientId : String}
    (hurl : isUrlBased clientId = false) : Agrees rt clients clientId issuer := by
  have hauth : getAuthorizationClient rt clients (.str clientId) issuer =
      (clients, .ok (getClientForIssuer clients clientId issuer)) := by
    simp [getAuthorizationClient, hurl]
  constructor
  case after => rw [hauth]; rfl
  case before => rw [hauth]; rfl

end

theorem same_client_iff (rt : RegistrationRuntime) (clients : List OAuthClientRecord)
    (record : OAuthClientRecord) (issuer : String) (hids : IdsUnique clients)
    (hrecord : record ∈ clients)
    (hfetch : isUrlBased record.clientId = true →
      ∃ metadata, fetchAndValidateClientMetadata rt.parse rt.fetch record.clientId = .ok metadata) :
    Agrees rt clients record.clientId issuer ↔
      ¬(isUrlBased record.clientId = true ∧ record.issuer = "default" ∧ issuer ≠ "default") := by
  cases hurl : isUrlBased record.clientId with
  | false =>
    have hagrees : Agrees rt clients record.clientId issuer := agrees_of_not_urlBased rt hurl
    simp [hagrees]
  | true =>
    obtain ⟨metadata, hmetadata⟩ := hfetch hurl
    have hauth : getAuthorizationClient rt clients (.str record.clientId) issuer = _ :=
      getAuthorizationClient_urlBased rt hurl
    rw [registerUrlBasedClient_eq rt hids hrecord hmetadata] at hauth
    by_cases hissuer : record.issuer = issuer
    · -- both sides find the row, with the scopes that it has been given
      have hrec := reconciled hrecord rt.now metadata
      rw [if_pos hissuer] at hauth
      have hagrees : Agrees rt clients record.clientId issuer := by
        constructor
        case after =>
          have hids' : IdsUnique (reconcileUrlBasedClientScopes clients rt.now record metadata).1 :=
            by rw [IdsUnique, hrec.ids]; exact hids
          rw [hauth, ← hrec.clientId, getClientForIssuer_eq hids' hrec.mem,
            if_pos (Or.inl (hrec.issuer.trans hissuer))]
          rfl
        case before =>
          rw [hauth, getClientForIssuer_eq hids hrecord, if_pos (Or.inl hissuer)]
          exact congrArg some hrec.clientId
      have hnot : ¬(record.issuer = "default" ∧ issuer ≠ "default") :=
        fun h => h.2 (hissuer.symm.trans h.1)
      simp [hagrees, hnot]
    · rw [if_neg hissuer] at hauth
      by_cases hdefault : record.issuer = "default"
      · -- only the other endpoints find a row of the legacy issuer
        have hne : issuer ≠ "default" := fun heq => hissuer (hdefault.trans heq.symm)
        have hdiffer : ¬Agrees rt clients record.clientId issuer := by
          intro hagrees
          have hbefore := hagrees.before
          rw [hauth, getClientForIssuer_eq hids hrecord, if_pos (Or.inr hdefault)] at hbefore
          cases hbefore
        simp [hdiffer, hdefault, hne]
      · have hnone : getClientForIssuer clients record.clientId issuer = none := by
          rw [getClientForIssuer_eq hids hrecord, if_neg (by simp [hissuer, hdefault])]
        have hagrees : Agrees rt clients record.clientId issuer := by
          constructor
          case after => rw [hauth, hnone]; rfl
          case before => rw [hauth, hnone]; rfl
        simp [hagrees, hdefault]

/-! ## A client with a URL for an id -/

def clientUrl : String := "https://client.example/metadata.json"

/-- The URL of the document, as it is read. -/
def clientDocumentUrl : Url :=
  ⟨"https", "", "", some "client.example", none, "/metadata.json", none, none⟩

def callbackUrl : Url := ⟨"https", "", "", some "client.example", none, "/callback", none, none⟩

/-- The members of the document. -/
def clientDocument : List (String × Json) :=
  [("client_id", .str clientUrl), ("client_name", .str "URL Client"),
    ("redirect_uris", .arr [.str "https://client.example/callback"]),
    ("token_endpoint_auth_method", .str "none")]

def documentRuntime : RegistrationRuntime :=
  { parse := fun text =>
      if text = clientUrl then some clientDocumentUrl
      else if text = "https://client.example/callback" then some callbackUrl
      else none
    fetch := fun url =>
      if url = clientUrl then .ok (.obj clientDocument)
      else .error "Failed to fetch client metadata: HTTP 404"
    clientId := "c0ffee"
    clientSecret := "5ec7e7"
    now := 2000 }

/-- The row of the client. -/
def urlClientRecord (issuer : String) : OAuthClientRecord :=
  { clientId := clientUrl
    issuer
    clientSecret := none
    applicationType := "web"
    tokenEndpointAuthMethod := "none"
    name := "URL Client"
    redirectUris := ["https://client.example/callback"]
    scopes := ["mcp:tools"]
    grantTypes := defaultGrantTypes
    responseTypes := ["code"]
    userId := none
    trusted := false
    createdAt := 1000
    updatedAt := 1000 }

theorem fetched_clientUrl : ∃ metadata,
    fetchAndValidateClientMetadata documentRuntime.parse documentRuntime.fetch clientUrl =
      .ok metadata := ⟨_, rfl⟩

/-- The client is found with its scopes upgraded. -/
theorem same_client_iff_upgraded :
    Agrees documentRuntime [urlClientRecord "https://issuer.example"] clientUrl
        "https://issuer.example" ∧
      (resolved (getAuthorizationClient documentRuntime
        [urlClientRecord "https://issuer.example"] (.str clientUrl)
        "https://issuer.example").2).map (·.scopes) = some mcpOAuthScopes := by
  have hagrees := (same_client_iff documentRuntime [urlClientRecord "https://issuer.example"]
    (urlClientRecord "https://issuer.example") "https://issuer.example" (by simp [IdsUnique])
    (by simp) fun _ => fetched_clientUrl).mpr (by decide)
  exact ⟨hagrees, by decide +kernel⟩

/-- The row has been there before there were issuers. -/
theorem legacy_url_client_refused :
    ¬ ∀ (rt : RegistrationRuntime) (clients : List OAuthClientRecord) (record : OAuthClientRecord)
      (issuer : String), IdsUnique clients → record ∈ clients →
      (isUrlBased record.clientId = true → ∃ metadata,
        fetchAndValidateClientMetadata rt.parse rt.fetch record.clientId = .ok metadata) →
      Agrees rt clients record.clientId issuer := by
  intro h
  have hagrees := h documentRuntime [urlClientRecord "default"] (urlClientRecord "default")
    "https://issuer.example" (by simp [IdsUnique]) (by simp) fun _ => fetched_clientUrl
  have hobs : (resolved (getAuthorizationClient documentRuntime [urlClientRecord "default"]
        (.str clientUrl) "https://issuer.example").2).isSome = false ∧
      (getClientForIssuer [urlClientRecord "default"] clientUrl
        "https://issuer.example").isSome = true := by decide +kernel
  have hsome := congrArg Option.isSome hagrees.before
  rw [Option.isSome_map, Option.isSome_map] at hsome
  exact absurd (hobs.1.symm.trans (hsome.trans hobs.2)) (by decide)

end OAuthClientService

end PetaCore
