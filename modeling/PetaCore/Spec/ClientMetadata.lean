import PetaCore.Core.OAuthClientService
import PetaCore.ForStd.Except
import PetaCore.ForStd.Run

/-!
# Where codes are sent

The redirect URIs that a client may be registered with, by a body or by a document, and those that
`validateRedirectUri` accepts for it.

## Key results

- `validateClientMetadata_eq_ok`, `validateMetadata_eq_ok`: which redirect URIs a registration accepts
- `registered_of_validateRedirectUri`: an accepted redirect URI is registered, but for its port
- `redirect_targets_iff`: codes go to `https` or to the loopback host exactly when no redirect URI
  of a client has a loopback host under another scheme
-/

namespace PetaCore

open Run

namespace ClientMetadata

/-! ## What the validators accept -/

def loopbackHosts : List String := ["localhost", "127.0.0.1", "[::1]"]

theorem isLoopbackHost_iff {hostname : String} :
    isLoopbackHost hostname = true ↔ hostname ∈ loopbackHosts := by
  simp [isLoopbackHost, loopbackHosts, or_assoc]

theorem protocol_eq_https {u : Url} : u.protocol = "https:" ↔ u.scheme = "https" := by
  rw [Url.protocol, show "https:" = "https" ++ ":" by decide, String.append_left_inj]

theorem protocol_eq_http {u : Url} : u.protocol = "http:" ↔ u.scheme = "http" := by
  rw [Url.protocol, show "http:" = "http" ++ ":" by decide, String.append_left_inj]

theorem acceptsUrl_iff {u : Url} :
    acceptsUrl u = true ↔ u.scheme = "https" ∨ u.hostname ∈ loopbackHosts := by
  simp [acceptsUrl, loopbackHosts, protocol_eq_https, or_assoc]

theorem isLoopbackHttpRedirect_iff {u : Url} :
    isLoopbackHttpRedirect u = true ↔ u.scheme = "http" ∧ u.hostname.toLower ∈ loopbackHosts := by
  unfold isLoopbackHttpRedirect
  split
  · next h => simp [protocol_eq_http.not.mp h]
  · next h => simp [protocol_eq_http.mp (not_not.mp h), isLoopbackHost_iff]

section

variable {uris : List String} {clients : List OAuthClientRecord} {uri : String}

variable {parse : String → Option Url}

/-- What is asked of a redirect URI in a body. -/
theorem checkRedirectUri_eq_ok {item : Json} :
    checkRedirectUri parse item = .ok uri ↔ item = .str uri ∧ uri ≠ "" ∧
      ∃ u, parse uri = some u ∧ (u.scheme = "https" ∨ u.hostname ∈ loopbackHosts) := by
  cases item with
  | str redirectUri =>
    simp only [checkRedirectUri, Json.str.injEq, ← acceptsUrl_iff, ← Option.any_eq_true]
    split
    · next hempty =>
      constructor
      · intro h
        cases h
      · rintro ⟨rfl, hne, _⟩
        exact absurd hempty hne
    · next hne =>
      split
      · next haccepts =>
        constructor
        · intro h
          cases h
          exact ⟨rfl, hne, haccepts⟩
        · rintro ⟨rfl, _, _⟩
          rfl
      · next hrefuses =>
        constructor
        · intro h
          cases h
        · rintro ⟨rfl, _, haccepts⟩
          exact absurd haccepts hrefuses
  | null | bool | num | arr | obj => simp [checkRedirectUri]

/-- What is asked of a redirect URI in a document. -/
theorem validateDocumentUri_eq_ok :
    validateDocumentUri parse uri = .ok () ↔ ∃ u, parse uri = some u ∧
      (u.scheme = "https" ∨ u.scheme = "http" ∧ u.hostname.toLower ∈ loopbackHosts) := by
  simp only [← isLoopbackHttpRedirect_iff, ← protocol_eq_https]
  unfold validateDocumentUri
  split
  · next u hu =>
    split
    · next h => simpa [hu] using h
    · next h => simpa [hu] using h
  · next hnone => simp [hnone]

theorem nonEmptyStrings?_eq_some {items : List Json} :
    nonEmptyStrings? items = some uris ↔ items = uris.map Json.str ∧ "" ∉ uris := by
  induction items generalizing uris with
  | nil =>
    simp only [nonEmptyStrings?, Option.some.injEq]
    constructor
    · rintro rfl
      simp
    · rintro ⟨h, _⟩
      exact (List.map_eq_nil_iff.mp h.symm).symm
  | cons item items ih =>
    cases item with
    | str s =>
      simp only [nonEmptyStrings?]
      split
      · next hempty =>
        constructor
        · intro h
          cases h
        · rintro ⟨h, hnot⟩
          cases uris with
          | nil => cases h
          | cons uri uris =>
            simp only [List.map_cons, List.cons.injEq, Json.str.injEq] at h
            exact absurd List.mem_cons_self (hempty ▸ h.1 ▸ hnot)
      · next hne =>
        rw [Option.map_eq_some_iff]
        constructor
        · rintro ⟨uris', huris', rfl⟩
          obtain ⟨rfl, hnot⟩ := ih.mp huris'
          exact ⟨rfl, by simp [Ne.symm hne, hnot]⟩
        · rintro ⟨h, hnot⟩
          cases uris with
          | nil => cases h
          | cons uri uris =>
            simp only [List.map_cons, List.cons.injEq, Json.str.injEq] at h
            refine ⟨uris, ih.mpr ⟨h.2, ?_⟩, by rw [h.1]⟩
            exact fun hmem => hnot (List.mem_cons_of_mem _ hmem)
    | null | bool | num | arr | obj =>
      simp only [nonEmptyStrings?]
      constructor
      · intro h
        cases h
      · rintro ⟨h, _⟩
        cases uris with
        | nil => cases h
        | cons uri uris => cases h

theorem checkRedirectUri_of_mem {value : Option Json} (h : checkRedirectUris parse value = .ok uris)
    (huri : uri ∈ uris) : ∃ item, checkRedirectUri parse item = .ok uri := by
  unfold checkRedirectUris at h
  split at h
  · obtain ⟨item, _, hitem⟩ := Except.of_mem_mapM h huri
    exact ⟨item, hitem⟩
  · cases h

theorem ne_empty_of_requiredStringArray {value : Option Json} {field : String}
    (h : requiredStringArray value field = .ok uris) : "" ∉ uris := by
  obtain ⟨parsed, hparsed, h⟩ := Except.bind_eq_ok.mp h
  split at h
  · cases h
  cases h
  unfold optionalStringArray at hparsed
  split at hparsed
  · cases hparsed
    simp
  · split at hparsed
    · next hsome =>
      cases hparsed
      exact (nonEmptyStrings?_eq_some.mp hsome).2
    · cases hparsed
  · cases hparsed

variable {metadata : List (String × Json)}

/-- A body is accepted that passes each check. -/
theorem validateClientMetadata_eq_ok :
    validateClientMetadata parse metadata = .ok uris ↔
      validateApplicationType (metadata.lookup "application_type") = .ok () ∧
      checkRedirectUris parse (metadata.lookup "redirect_uris") = .ok uris ∧
      checkSupported metadata "grant_types" supportedGrantTypes = .ok () ∧
      checkSupported metadata "response_types" ["code"] = .ok () ∧
      checkAuthMethod (metadata.lookup "token_endpoint_auth_method") = .ok () := by
  constructor
  · intro h
    obtain ⟨_, htype, h⟩ := Except.bind_eq_ok.mp h
    obtain ⟨redirectUris, huris, h⟩ := Except.bind_eq_ok.mp h
    obtain ⟨_, hgrants, h⟩ := Except.bind_eq_ok.mp h
    obtain ⟨_, hresponses, h⟩ := Except.bind_eq_ok.mp h
    obtain ⟨_, hmethod, h⟩ := Except.bind_eq_ok.mp h
    cases h
    exact ⟨htype, huris, hgrants, hresponses, hmethod⟩
  · rintro ⟨htype, huris, hgrants, hresponses, hmethod⟩
    simp only [validateClientMetadata, htype, huris, hgrants, hresponses, hmethod, bind, Except.bind]

/-- A document is accepted that passes each check; its redirect URIs are those of the result. -/
theorem validateMetadata_eq_ok {members : List (String × Json)} :
    (∃ metadata, validateMetadata parse (.obj members) = .ok metadata ∧
      metadata.redirectUris = uris) ↔
    (∃ s, requiredString (members.lookup "client_id") "client_id" = .ok s) ∧
      (∃ s, requiredString (members.lookup "client_name") "client_name" = .ok s) ∧
      requiredStringArray (members.lookup "redirect_uris") "redirect_uris" = .ok uris ∧
      uris.forM (validateDocumentUri parse) = .ok () ∧
      (∃ l, supportedStrings members "grant_types" supportedGrantTypes = .ok l) ∧
      (∃ l, supportedStrings members "response_types" ["code"] = .ok l) ∧
      (∃ o, documentAuthMethod (members.lookup "token_endpoint_auth_method") = .ok o) ∧
      ∃ o, documentApplicationType (members.lookup "application_type") = .ok o := by
  constructor
  · rintro ⟨metadata, h, rfl⟩
    obtain ⟨_, hid, h⟩ := Except.bind_eq_ok.mp h
    obtain ⟨_, hname, h⟩ := Except.bind_eq_ok.mp h
    obtain ⟨_, huris, h⟩ := Except.bind_eq_ok.mp h
    obtain ⟨_, hchecked, h⟩ := Except.bind_eq_ok.mp h
    obtain ⟨_, hgrants, h⟩ := Except.bind_eq_ok.mp h
    obtain ⟨_, hresponses, h⟩ := Except.bind_eq_ok.mp h
    obtain ⟨_, hmethod, h⟩ := Except.bind_eq_ok.mp h
    obtain ⟨_, htype, h⟩ := Except.bind_eq_ok.mp h
    cases h
    exact ⟨⟨_, hid⟩, ⟨_, hname⟩, huris, hchecked, ⟨_, hgrants⟩, ⟨_, hresponses⟩, ⟨_, hmethod⟩,
      ⟨_, htype⟩⟩
  · rintro ⟨⟨_, hid⟩, ⟨_, hname⟩, huris, hchecked, ⟨_, hgrants⟩, ⟨_, hresponses⟩, ⟨_, hmethod⟩,
      ⟨_, htype⟩⟩
    simp only [validateMetadata, hid, hname, huris, hchecked, hgrants, hresponses, hmethod, htype,
      bind, Except.bind, Except.ok.injEq]
    exact ⟨_, rfl, rfl⟩

/-- The redirect URI is one of a body that a registration accepts. -/
def BodyAccepts (parse : String → Option Url) (uri : String) : Prop :=
  ∃ metadata uris, validateClientMetadata parse metadata = .ok uris ∧ uri ∈ uris

/-- The redirect URI is one of a document that a registration accepts. -/
def DocumentAccepts (parse : String → Option Url) (uri : String) : Prop :=
  ∃ document metadata, validateMetadata parse document = .ok metadata ∧
    uri ∈ metadata.redirectUris

theorem bodyAccepts_iff : BodyAccepts parse uri ↔
    uri ≠ "" ∧ ∃ u, parse uri = some u ∧ (u.scheme = "https" ∨ u.hostname ∈ loopbackHosts) := by
  constructor
  · rintro ⟨metadata, uris, haccepted, huri⟩
    obtain ⟨_, huris, _⟩ := validateClientMetadata_eq_ok.mp haccepted
    obtain ⟨item, hitem⟩ := checkRedirectUri_of_mem huris huri
    exact (checkRedirectUri_eq_ok.mp hitem).2
  · intro h
    have hchecked : checkRedirectUri parse (.str uri) = .ok uri :=
      checkRedirectUri_eq_ok.mpr ⟨rfl, h⟩
    have huris : checkRedirectUris parse (some (.arr [.str uri])) = .ok [uri] := by
      simp [checkRedirectUris, hchecked, bind, Except.bind, pure, Except.pure]
    refine ⟨[("redirect_uris", .arr [.str uri])], [uri], ?_, List.mem_cons_self⟩
    exact validateClientMetadata_eq_ok.mpr ⟨rfl, huris, rfl, rfl, rfl⟩

theorem documentAccepts_iff : DocumentAccepts parse uri ↔
    uri ≠ "" ∧ ∃ u, parse uri = some u ∧
      (u.scheme = "https" ∨ u.scheme = "http" ∧ u.hostname.toLower ∈ loopbackHosts) := by
  constructor
  · rintro ⟨document, metadata, haccepted, huri⟩
    cases document with
    | obj members =>
      obtain ⟨_, _, hvalue, hchecked, _⟩ := validateMetadata_eq_ok.mp ⟨metadata, haccepted, rfl⟩
      refine ⟨?_, validateDocumentUri_eq_ok.mp (Except.forM_eq_ok.mp hchecked uri huri)⟩
      rintro rfl
      exact ne_empty_of_requiredStringArray hvalue huri
    | null | bool | num | arr | str => cases haccepted
  · rintro ⟨hne, hurl⟩
    have hchecked : [uri].forM (validateDocumentUri parse) = .ok () := by
      simpa [Except.forM_eq_ok] using validateDocumentUri_eq_ok.mpr hurl
    have hstrings : nonEmptyStrings? [.str uri] = some [uri] :=
      nonEmptyStrings?_eq_some.mpr ⟨rfl, by simp [Ne.symm hne]⟩
    have huris : requiredStringArray (some (.arr [.str uri])) "redirect_uris" = .ok [uri] := by
      simp [requiredStringArray, optionalStringArray, hstrings, bind, Except.bind]
    have haccepted : ∃ metadata, validateMetadata parse (.obj [("client_id", .str "id"),
          ("client_name", .str "name"), ("redirect_uris", .arr [.str uri])]) = .ok metadata ∧
        metadata.redirectUris = [uri] :=
      validateMetadata_eq_ok.mpr ⟨⟨"id", rfl⟩, ⟨"name", rfl⟩, huris, hchecked, ⟨[], rfl⟩, ⟨[], rfl⟩,
        ⟨none, rfl⟩, ⟨none, rfl⟩⟩
    obtain ⟨metadata, haccepted, heq⟩ := haccepted
    exact ⟨_, metadata, haccepted, by simp [heq]⟩

/-! ## What is accepted afterwards -/

/-- The redirect URI is a URL of `https`, or of `http` on the loopback host. -/
def SafeTarget (parse : String → Option Url) (redirectUri : String) : Prop :=
  ∃ u, parse redirectUri = some u ∧
    (u.scheme = "https" ∨ u.scheme = "http" ∧ u.hostname ∈ loopbackHosts)

/-- The redirect URI is registered, or differs in its port alone from a registered `http` URL of the
    loopback host that has none. -/
def Registered (parse : String → Option Url) (redirectUri : String) (uris : List String) : Prop :=
  redirectUri ∈ uris ∨ ∃ uri ∈ uris, ∃ u v, parse redirectUri = some u ∧ parse uri = some v ∧
    v.scheme = "http" ∧ v.hostname ∈ loopbackHosts ∧ v.port = none ∧ u.clearPort = v

/-- Every redirect URI that is accepted for these is safe, and registered but for its port. -/
def TargetsSafe (parse : String → Option Url) (uris : List String) : Prop :=
  ∀ redirectUri, OAuth.validateRedirectUri (urlRuntime parse) redirectUri uris = true →
    SafeTarget parse redirectUri ∧ Registered parse redirectUri uris

/-- On the loopback host the redirect URI has the scheme `http` or `https`. -/
def WebOnly (parse : String → Option Url) (uri : String) : Prop :=
  ∀ u, parse uri = some u → u.hostname ∈ loopbackHosts → u.scheme = "https" ∨ u.scheme = "http"

theorem loopbackKeyFromUrl_eq_some {u : Url} {key : String} :
    loopbackKeyFromUrl u = some key ↔
      u.scheme = "http" ∧ u.hostname.toLower ∈ loopbackHosts ∧ u.clearPort.href = key := by
  unfold loopbackKeyFromUrl
  split
  · next h => simp [protocol_eq_http.not.mp h]
  · next h =>
    have hscheme := protocol_eq_http.mp (not_not.mp h)
    split
    · next hhost =>
      rw [Bool.not_eq_true', ← Bool.not_eq_true, isLoopbackHost_iff] at hhost
      simp [hhost]
    · next hhost =>
      rw [Bool.not_eq_true', Bool.not_eq_false, isLoopbackHost_iff] at hhost
      simp [hscheme, hhost]

/-- A redirect URI that is accepted without being registered. -/
theorem loopback_of_validateRedirectUri (hparse : Url.IsParser parse) {redirectUri : String}
    (h : OAuth.validateRedirectUri (urlRuntime parse) redirectUri uris = true)
    (hnot : redirectUri ∉ uris) :
    ∃ uri ∈ uris, ∃ u v, parse redirectUri = some u ∧ parse uri = some v ∧ u.scheme = "http" ∧
      u.hostname ∈ loopbackHosts ∧ v.port = none ∧ u.clearPort = v := by
  simp only [OAuth.validateRedirectUri, if_neg hnot] at h
  split at h
  · cases h
  next key hkey =>
  obtain ⟨uri, huri, hallowed⟩ := List.any_eq_true.mp h
  obtain ⟨u, hu, hukey⟩ := Option.bind_eq_some_iff.mp hkey
  obtain ⟨v, hv, hvkey⟩ := Option.bind_eq_some_iff.mp (of_decide_eq_true hallowed)
  obtain ⟨huscheme, huhost, huhref⟩ := loopbackKeyFromUrl_eq_some.mp hukey
  split at hvkey
  · cases hvkey
  next hport =>
  obtain ⟨hvscheme, _, hvhref⟩ := loopbackKeyFromUrl_eq_some.mp hvkey
  have hnone : v.port = none := not_not.mp hport
  have hsame := hparse.eq_of_href hu hv huscheme hvscheme (huhref.trans hvhref.symm)
  rw [hparse.lowerHost redirectUri u hu huscheme] at huhost
  exact ⟨uri, huri, u, v, hu, hv, huscheme, huhost, hnone,
    hsame.trans (Url.clearPort_eq_self.mpr hnone)⟩

/-- What is accepted is registered, but for its port. -/
theorem registered_of_validateRedirectUri (hparse : Url.IsParser parse) {redirectUri : String}
    (h : OAuth.validateRedirectUri (urlRuntime parse) redirectUri uris = true) :
    Registered parse redirectUri uris := by
  by_cases hmem : redirectUri ∈ uris
  · exact .inl hmem
  · obtain ⟨uri, huri, u, v, hu, hv, hscheme, hhost, hport, heq⟩ :=
      loopback_of_validateRedirectUri hparse h hmem
    refine .inr ⟨uri, huri, u, v, hu, hv, ?_, ?_, hport, heq⟩
    · rw [← heq]
      exact hscheme
    · rw [← heq]
      exact hhost

/-- When redirect URIs have passed the check of a body, codes go to safe targets exactly when each
    is of the web. -/
theorem targetsSafe_iff (hparse : Url.IsParser parse)
    (haccepted : ∀ uri ∈ uris, BodyAccepts parse uri) :
    TargetsSafe parse uris ↔ ∀ uri ∈ uris, WebOnly parse uri := by
  constructor
  · intro hsafe uri huri u hu _
    have hvalid : OAuth.validateRedirectUri (urlRuntime parse) uri uris = true := by
      simp [OAuth.validateRedirectUri, huri]
    obtain ⟨u', hu', hscheme⟩ := (hsafe uri hvalid).1
    rw [hu] at hu'
    cases hu'
    rcases hscheme with hscheme | ⟨hscheme, _⟩
    · exact .inl hscheme
    · exact .inr hscheme
  · intro hweb redirectUri hvalid
    refine ⟨?_, registered_of_validateRedirectUri hparse hvalid⟩
    by_cases hmem : redirectUri ∈ uris
    · obtain ⟨_, u, hu, hurl⟩ := bodyAccepts_iff.mp (haccepted redirectUri hmem)
      refine ⟨u, hu, ?_⟩
      rcases hurl with hscheme | hhost
      · exact .inl hscheme
      · rcases hweb redirectUri hmem u hu hhost with hscheme | hscheme
        · exact .inl hscheme
        · exact .inr ⟨hscheme, hhost⟩
    · obtain ⟨uri, _, u, v, hu, _, hscheme, hhost, _⟩ :=
        loopback_of_validateRedirectUri hparse hvalid hmem
      exact ⟨u, hu, .inr ⟨hscheme, hhost⟩⟩

/-- What a document may name is what a body may, if it is of the web. -/
theorem documentAccepts_iff_body (hparse : Url.IsParser parse) :
    DocumentAccepts parse uri ↔ BodyAccepts parse uri ∧ WebOnly parse uri := by
  rw [documentAccepts_iff, bodyAccepts_iff]
  constructor
  · rintro ⟨hne, u, hu, hurl⟩
    have hlower : u.scheme = "http" → u.hostname.toLower = u.hostname :=
      hparse.lowerHost uri u hu
    refine ⟨⟨hne, u, hu, ?_⟩, ?_⟩
    · rcases hurl with hscheme | ⟨hscheme, hhost⟩
      · exact .inl hscheme
      · exact .inr (hlower hscheme ▸ hhost)
    · intro u' hu' _
      rw [hu] at hu'
      cases hu'
      rcases hurl with hscheme | ⟨hscheme, _⟩
      · exact .inl hscheme
      · exact .inr hscheme
  · rintro ⟨⟨hne, u, hu, hurl⟩, hweb⟩
    refine ⟨hne, u, hu, ?_⟩
    rcases hurl with hscheme | hhost
    · exact .inl hscheme
    · rcases hweb u hu hhost with hscheme | hscheme
      · exact .inl hscheme
      · refine .inr ⟨hscheme, ?_⟩
        rw [hparse.lowerHost uri u hu hscheme]
        exact hhost

/-- The validators accept the same redirect URIs that are of the web. -/
theorem bodyAccepts_iff_document (hparse : Url.IsParser parse) :
    (BodyAccepts parse uri ↔ DocumentAccepts parse uri) ↔ WebOnly parse uri := by
  rw [documentAccepts_iff_body hparse]
  constructor
  · intro h u hu hhost
    have hne : uri ≠ "" := by
      rintro rfl
      rw [hparse.empty] at hu
      cases hu
    exact (h.mp (bodyAccepts_iff.mpr ⟨hne, u, hu, .inr hhost⟩)).2 u hu hhost
  · intro hweb
    exact ⟨fun hbody => ⟨hbody, hweb⟩, fun h => h.1⟩

/-! ## Every run of registrations -/

variable {row : OAuthClientRecord} {rt : RegistrationRuntime}

/-- Where the redirect URIs of a row are from: a row there was, a body or a document. -/
inductive Source (parse : String → Option Url) (clients : List OAuthClientRecord)
    (uris : List String) : Prop
  | row {old : OAuthClientRecord} (hold : old ∈ clients) (h : old.redirectUris = uris)
  | body {metadata : List (String × Json)} (h : validateClientMetadata parse metadata = .ok uris)
  | document {document : Json} {metadata : OAuthClientMetadata}
    (h : validateMetadata parse document = .ok metadata) (huris : metadata.redirectUris = uris)

/-- The row that a body makes has the redirect URIs that have been checked. -/
theorem redirectUris_registerTraditionalClient {issuer : String}
    (h : row ∈ (OAuthClientService.registerTraditionalClient rt clients metadata issuer).1) :
    Source rt.parse clients row.redirectUris := by
  unfold OAuthClientService.registerTraditionalClient at h
  simp only at h
  split at h
  · exact .row h rfl
  · next client hchecked =>
    rcases List.mem_append.mp h with hold | hnew
    · exact .row hold rfl
    · obtain rfl := List.mem_singleton.mp hnew
      obtain ⟨redirectUris, haccepted, hchecked⟩ := Except.bind_eq_ok.mp hchecked
      obtain ⟨_, _, hchecked⟩ := Except.bind_eq_ok.mp hchecked
      obtain ⟨_, _, hchecked⟩ := Except.bind_eq_ok.mp hchecked
      cases hchecked
      exact .body haccepted

/-- The row that a document makes has its redirect URIs; the upgrade of scopes leaves them. -/
theorem redirectUris_registerUrlBasedClient {providedClientId issuer : String}
    (h : row ∈ (OAuthClientService.registerUrlBasedClient rt clients providedClientId issuer).1) :
    Source rt.parse clients row.redirectUris := by
  unfold OAuthClientService.registerUrlBasedClient at h
  split at h
  · exact .row h rfl
  next fetched hfetch =>
  split at h
  · next existing hexisting =>
    simp only [OAuthClientService.reconcileUrlBasedClientScopes] at h
    split at h
    · exact .row h rfl
    split at h
    · exact .row h rfl
    · obtain ⟨row', hrow', heq⟩ := List.mem_map.mp h
      split at heq
      · refine .row (List.mem_of_find?_eq_some hexisting) ?_
        rw [← heq]
      · exact .row hrow' (by rw [heq])
  split at h
  · exact .row h rfl
  · rcases List.mem_append.mp h with hold | hnew
    · exact .row hold rfl
    · obtain rfl := List.mem_singleton.mp hnew
      obtain ⟨_, _, hfetch⟩ := Except.bind_eq_ok.mp hfetch
      obtain ⟨document, _, hfetch⟩ := Except.bind_eq_ok.mp hfetch
      obtain ⟨metadata, haccepted, hfetch⟩ := Except.bind_eq_ok.mp hfetch
      split at hfetch
      · cases hfetch
      cases hfetch
      exact .document haccepted rfl

/-- A row after a registration has redirect URIs that were there, or that have been accepted. -/
theorem redirectUris_registerClient {issuer : String}
    (h : row ∈ (OAuthClientService.registerClient rt clients metadata issuer).1) :
    Source rt.parse clients row.redirectUris := by
  unfold OAuthClientService.registerClient at h
  split at h
  · split at h
    · exact redirectUris_registerUrlBasedClient h
    · exact redirectUris_registerTraditionalClient h
  · exact redirectUris_registerTraditionalClient h

theorem bodyAccepts_of_isRun (hparse : Url.IsParser parse)
    {trs : List (Transition (List OAuthClientRecord) OAuthClientService.Registration)}
    (h : IsRun (OAuthClientService.step parse) [] trs clients) :
    ∀ row ∈ clients, ∀ uri ∈ row.redirectUris, BodyAccepts parse uri := by
  apply h.invariant (I := fun clients =>
    ∀ row ∈ clients, ∀ uri ∈ row.redirectUris, BodyAccepts parse uri)
  · intro clients r clients' hclients hstep row hrow uri huri
    cases hstep
    cases redirectUris_registerClient hrow with
    | row hold heq => exact hclients _ hold uri (heq ▸ huri)
    | body haccepted => exact ⟨_, row.redirectUris, haccepted, huri⟩
    | document haccepted heq =>
      exact ((documentAccepts_iff_body hparse).mp ⟨_, _, haccepted, heq ▸ huri⟩).1
  · intro row hrow
    cases hrow

end

theorem redirect_targets_iff (parse : String → Option Url)
    (trs : List (Transition (List OAuthClientRecord) OAuthClientService.Registration))
    (clients : List OAuthClientRecord) (hparse : Url.IsParser parse)
    (h : IsRun (OAuthClientService.step parse) [] trs clients) :
    (∀ row ∈ clients,
      TargetsSafe parse row.redirectUris ↔ ∀ uri ∈ row.redirectUris, WebOnly parse uri) ∧
    (∀ document metadata, validateMetadata parse document = .ok metadata →
      TargetsSafe parse metadata.redirectUris) ∧
    ∀ uri, (BodyAccepts parse uri ↔ DocumentAccepts parse uri) ↔ WebOnly parse uri := by
  refine ⟨?_, ?_, fun uri => bodyAccepts_iff_document hparse⟩
  · intro row hrow
    exact targetsSafe_iff hparse (bodyAccepts_of_isRun hparse h row hrow)
  · intro document metadata haccepted
    have hboth : ∀ uri ∈ metadata.redirectUris, BodyAccepts parse uri ∧ WebOnly parse uri :=
      fun uri huri => (documentAccepts_iff_body hparse).mp ⟨document, metadata, haccepted, huri⟩
    exact (targetsSafe_iff hparse fun uri huri => (hboth uri huri).1).mpr
      fun uri huri => (hboth uri huri).2

/-! ## A native client -/

/-- Three redirect URIs of the loopback host, as they are read. -/
def localParse (text : String) : Option Url :=
  if text = "http://localhost/callback" then
    some ⟨"http", "", "", some "localhost", none, "/callback", none, none⟩
  else if text = "http://localhost:49152/callback" then
    some ⟨"http", "", "", some "localhost", some 49152, "/callback", none, none⟩
  else if text = "javascript://localhost/%0aalert(1)" then
    some ⟨"javascript", "", "", some "localhost", none, "/%0aalert(1)", none, none⟩
  else none

theorem isParser_localParse : Url.IsParser localParse := by
  constructor
  case reparse =>
    intro text u hu hscheme
    unfold localParse at hu
    split at hu
    · cases hu
      decide
    split at hu
    · cases hu
      decide
    split at hu
    · cases hu
      exact absurd hscheme (by decide)
    · cases hu
  case lowerHost =>
    have hlower : "localhost".toLower = "localhost" := by
      show "localhost".map Char.toLower = _
      rw [← String.toList_inj, String.toList_map]
      rfl
    intro text u hu _
    unfold localParse at hu
    split at hu
    · cases hu
      exact hlower
    split at hu
    · cases hu
      exact hlower
    split at hu
    · cases hu
      exact hlower
    · cases hu
  case empty => decide

/-- A client is registered with one redirect URI. -/
def registration (redirectUri : String) : OAuthClientService.Registration :=
  { fetch := fun _ => .error "Failed to fetch client metadata: HTTP 404"
    clientId := "c0ffee"
    clientSecret := "5ec7e7"
    now := 1000
    metadata := [("redirect_uris", .arr [.str redirectUri])]
    issuer := "https://issuer.example" }

/-- A native redirect URI and a script are registered, and accepted afterwards. -/
theorem registration_localParse :
    ∀ e ∈ [("http://localhost/callback", "http://localhost:49152/callback"),
        ("javascript://localhost/%0aalert(1)", "javascript://localhost/%0aalert(1)")],
      (exec (OAuthClientService.step localParse) [] [registration e.1]).map
          (·.map (·.redirectUris)) = some [[e.1]] ∧
        OAuth.validateRedirectUri (urlRuntime localParse) e.2 [e.1] = true := by
  decide +kernel

theorem redirect_targets_iff_native : ∃ clients,
    exec (OAuthClientService.step localParse) [] [registration "http://localhost/callback"] =
      some clients ∧ clients.map (·.redirectUris) = [["http://localhost/callback"]] ∧
    SafeTarget localParse "http://localhost:49152/callback" := by
  obtain ⟨hobs, hvalid⟩ := registration_localParse _ List.mem_cons_self
  obtain ⟨clients, hclients, huris⟩ := Option.map_eq_some_iff.mp hobs
  refine ⟨clients, hclients, huris, ?_⟩
  have hrows := (redirect_targets_iff localParse _ clients isParser_localParse
    (isRun_trace _ _ _ hclients)).1
  cases clients with
  | nil => cases huris
  | cons row rows =>
    have huri : row.redirectUris = ["http://localhost/callback"] := (List.cons.inj huris).1
    have hweb : ∀ uri ∈ row.redirectUris, WebOnly localParse uri := by
      rw [huri]
      intro uri hmem u hu _
      obtain rfl := List.mem_singleton.mp hmem
      cases hu
      exact .inr rfl
    have hsafe := (hrows row List.mem_cons_self).mpr hweb
    rw [huri] at hsafe
    exact (hsafe _ hvalid).1

theorem script_target_accepted :
    ¬ ∀ (parse : String → Option Url)
      (trs : List (Transition (List OAuthClientRecord) OAuthClientService.Registration))
      (clients : List OAuthClientRecord), Url.IsParser parse →
      IsRun (OAuthClientService.step parse) [] trs clients →
      ∀ row ∈ clients, TargetsSafe parse row.redirectUris := by
  intro h
  obtain ⟨hobs, hvalid⟩ := registration_localParse _ (List.mem_cons_of_mem _ List.mem_cons_self)
  obtain ⟨clients, hclients, huris⟩ := Option.map_eq_some_iff.mp hobs
  have hrows := h localParse _ clients isParser_localParse (isRun_trace _ _ _ hclients)
  cases clients with
  | nil => cases huris
  | cons row rows =>
    have huri : row.redirectUris = ["javascript://localhost/%0aalert(1)"] :=
      (List.cons.inj huris).1
    rw [← huri] at hvalid
    obtain ⟨⟨u, hu, hscheme⟩, _⟩ := hrows row List.mem_cons_self _ hvalid
    cases hu
    rcases hscheme with hscheme | ⟨hscheme, _⟩
    · exact absurd hscheme (by decide)
    · exact absurd hscheme (by decide)

end ClientMetadata

end PetaCore
