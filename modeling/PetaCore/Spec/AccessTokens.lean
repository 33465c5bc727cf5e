import PetaCore.Core.AccessTokens
import PetaCore.ForStd.Base64
import PetaCore.ForStd.JsonText
import PetaCore.ForStd.Utf8
import PetaCore.Spec.OAuthGrants

/-!
# Access tokens that clash

An access token is the signature of client, user, scopes, audience and second. Two grants that agree
on these need the same text in a unique column.

## Key results

- `tokenTaken_iff`: the column has no room exactly when another record agrees on what is signed
- `TokensOk.signStep`: the stored tokens are signatures of their records, and distinct
- `access_tokens_stored_iff`: in a run every statement stores its token exactly when each has room,
  and then no claimed code is lost
-/

namespace PetaCore

open Run OAuth

/-! ## What a token says -/

theorem TokenPayload.toJson_injective : Function.Injective TokenPayload.toJson := by
  intro p q h
  cases p with | mk type clientId userId scopes aud iat exp =>
  cases q with | mk type' clientId' userId' scopes' aud' iat' exp' =>
  simp only [TokenPayload.toJson, Json.obj.injEq, List.cons_append, List.nil_append,
    List.cons.injEq, Prod.mk.injEq, Json.str.injEq, Json.arr.injEq, Json.num.injEq, true_and] at h
  obtain ⟨rfl, rfl, rfl, hscopes, hiat, hexp, haud⟩ := h
  have hstr : Function.Injective Json.str := fun _ _ heq => Json.str.inj heq
  obtain rfl := List.map_injective_iff.mpr hstr hscopes
  obtain rfl := JsNumber.ofNat_injective hiat
  obtain rfl := JsNumber.ofNat_injective hexp
  cases aud with
  | none => cases aud' with
    | none => rfl
    | some aud' => cases haud
  | some aud => cases aud' with
    | none => cases haud
    | some aud' =>
      simp only [List.cons.injEq, Prod.mk.injEq, Json.str.injEq, true_and, and_true] at haud
      rw [haud]

namespace GrantState

/-- The access token of a record says what one that is made now for a grant would say. -/
def SameClaims (record : OAuthToken) (clientId userId : String) (scopes : List String)
    (resource : Option String) (now : Nat) : Prop :=
  record.clientId = clientId ∧ record.userId = userId ∧ record.scopes = scopes ∧
    given record.resource = given resource ∧
    record.accessTokenExpiresAt / 1000 = (now + accessTokenLifetime) / 1000

instance (record : OAuthToken) (clientId userId : String) (scopes : List String)
    (resource : Option String) (now : Nat) :
    Decidable (SameClaims record clientId userId scopes resource now) :=
  inferInstanceAs (Decidable (_ ∧ _ ∧ _ ∧ _ ∧ _))

/-- The access token of a record, made again. -/
def tokenOf (sign : Json → String) (record : OAuthToken) : String :=
  generateAccessToken sign record.clientId record.userId record.scopes record.resource
    (record.accessTokenExpiresAt - accessTokenLifetime)

theorem second_eq_iff {expiresAt now : Nat} (h : accessTokenLifetime ≤ expiresAt) :
    (expiresAt - accessTokenLifetime) / 1000 = now / 1000 ↔
      expiresAt / 1000 = (now + accessTokenLifetime) / 1000 := by
  simp only [accessTokenLifetime] at h ⊢
  omega

section

variable {sign : Json → String} {record : OAuthToken} {clientId userId : String}
  {scopes : List String} {resource : Option String} {now : Nat}

/-- Signing is deterministic. -/
theorem tokenOf_eq (hclaims : SameClaims record clientId userId scopes resource now)
    (h : accessTokenLifetime ≤ record.accessTokenExpiresAt) :
    tokenOf sign record = generateAccessToken sign clientId userId scopes resource now := by
  obtain ⟨rfl, rfl, rfl, haud, hexpires⟩ := hclaims
  rw [← second_eq_iff h] at hexpires
  simp only [tokenOf, generateAccessToken, payload, haud, hexpires]

/-- Two tokens are the same text exactly when they say the same. -/
theorem tokenOf_eq_iff (hsign : Function.Injective sign)
    (h : accessTokenLifetime ≤ record.accessTokenExpiresAt) :
    tokenOf sign record = generateAccessToken sign clientId userId scopes resource now ↔
      SameClaims record clientId userId scopes resource now := by
  constructor
  · intro htoken
    have hpayload := TokenPayload.toJson_injective (hsign htoken)
    simp only [payload, TokenPayload.mk.injEq, true_and] at hpayload
    obtain ⟨hclient, huser, hscopes, haud, hiat, _⟩ := hpayload
    exact ⟨hclient, huser, hscopes, haud, (second_eq_iff h).mp hiat⟩
  · intro hclaims
    exact tokenOf_eq hclaims h

end

/-! ## The invariant -/

/-- The record that a refresh is about to update. -/
def heldRecord? : GrantRequest → Option OAuthToken
  | .refresh _ (.updating record _) => some record
  | _ => none

/-- The columns that no statement changes. -/
def SameOwner (record record' : OAuthToken) : Prop :=
  record.clientId = record'.clientId ∧ record.userId = record'.userId ∧
    record.resource = record'.resource

/-- Each stored token is the signature of its record, and no two are the same. -/
structure TokensOk (sign : Json → String) (s : GrantState) : Prop where
  number : ∀ j record, s.tokens.get? j = some record → record.tokenId = j
  signed : ∀ j record, s.tokens.get? j = some record →
    accessTokenLifetime ≤ record.accessTokenExpiresAt ∧ record.accessToken = tokenOf sign record
  distinct : ∀ j j' record record', s.tokens.get? j = some record →
    s.tokens.get? j' = some record' → record.accessToken = record'.accessToken → j = j'
  held : ∀ i r record, s.requests.get? i = some r → heldRecord? r = some record →
    record.tokenId < s.tokens.next ∧
      ∀ current, s.tokens.get? record.tokenId = some current → SameOwner record current

theorem tokensOk_init (sign : Json → String) (clients : List OAuthClient) (users : List OAuthUser)
    (now : Nat) : TokensOk sign (init clients users now) := by
  constructor
  all_goals simp [init]

section

variable {sign : Json → String} {s s' : GrantState} {i : Nat}

theorem tokenTaken_eq_true {tokenId : Nat} {accessToken : String} :
    s.tokenTaken tokenId accessToken = true ↔ ∃ j record, s.tokens.get? j = some record ∧
      j ≠ tokenId ∧ record.accessToken = accessToken := by
  simp [tokenTaken, Table.any_eq_true]

/-- The column has no room exactly when another record agrees on what is signed. -/
theorem tokenTaken_iff (hsign : Function.Injective sign) (h : TokensOk sign s) {tokenId : Nat}
    {clientId userId : String} {scopes : List String} {resource : Option String} {now : Nat} :
    s.tokenTaken tokenId (generateAccessToken sign clientId userId scopes resource now) = true ↔
      ∃ j record, s.tokens.get? j = some record ∧ j ≠ tokenId ∧
        SameClaims record clientId userId scopes resource now := by
  rw [tokenTaken_eq_true]
  constructor
  · rintro ⟨j, record, hrecord, hj, htoken⟩
    obtain ⟨hexpires, hsigned⟩ := h.signed j record hrecord
    rw [hsigned] at htoken
    exact ⟨j, record, hrecord, hj, (tokenOf_eq_iff hsign hexpires).mp htoken⟩
  · rintro ⟨j, record, hrecord, hj, hclaims⟩
    obtain ⟨hexpires, hsigned⟩ := h.signed j record hrecord
    refine ⟨j, record, hrecord, hj, ?_⟩
    rw [hsigned]
    exact (tokenOf_eq_iff hsign hexpires).mpr hclaims

end

/-! ## The other statements -/

/-- What the steps other than the two statements leave: they store no token and claim a code only
    for an exchange that is about to store one. -/
structure Quiet (s s' : GrantState) : Prop where
  next : s'.tokens.next = s.tokens.next
  records : ∀ j record', s'.tokens.get? j = some record' →
    ∃ record, s.tokens.get? j = some record ∧
      (record' = record ∨ record' = { record with revoked := true })
  held : ∀ i r record, s'.requests.get? i = some r → heldRecord? r = some record →
    (∃ i r, s.requests.get? i = some r ∧ heldRecord? r = some record) ∨
      ∃ j, s.tokens.get? j = some record
  issued : ∀ row tokenId token, .issued row tokenId token ∈ s.events →
    .issued row tokenId token ∈ s'.events
  pending : ∀ i r row, s.requests.get? i = some r → pendingRow? r = some row →
    s'.requests.get? i = some r
  exchanged : ∀ req row time, .exchanged req row time ∈ s'.events →
    .exchanged req row time ∈ s.events ∨
      ∃ i r, s'.requests.get? i = some r ∧ pendingRow? r = some row

section

variable {s s' : GrantState} {i : Nat}

/-- The records may change, and the requests and the events stay. -/
theorem Quiet.extend (hnext : s'.tokens.next = s.tokens.next)
    (hrecords : ∀ j record', s'.tokens.get? j = some record' →
      ∃ record, s.tokens.get? j = some record ∧
        (record' = record ∨ record' = { record with revoked := true }))
    (hrequests : s'.requests = s.requests) (hevents : s'.events = s.events) : Quiet s s' := by
  constructor
  case next => exact hnext
  case records => exact hrecords
  case held =>
    rw [hrequests]
    exact fun i r record hr hheld => .inl ⟨i, r, hr, hheld⟩
  case issued => rw [hevents]; exact fun _ _ _ h => h
  case pending => rw [hrequests]; exact fun _ _ _ h _ => h
  case exchanged => rw [hevents]; exact fun _ _ _ h => .inl h

/-- The records, the requests and the events stay. -/
theorem Quiet.same (htokens : s'.tokens = s.tokens) (hrequests : s'.requests = s.requests)
    (hevents : s'.events = s.events) : Quiet s s' := by
  apply Quiet.extend (by rw [htokens]) _ hrequests hevents
  rw [htokens]
  exact fun j record h => ⟨record, h, .inl rfl⟩

/-- An event is logged that claims no code. -/
theorem Quiet.log (h : Quiet s s') {e : GrantEvent}
    (he : ∀ req row time, e ≠ .exchanged req row time) : Quiet s (s'.log e) := by
  refine { h with issued := ?_, exchanged := ?_ }
  · intro row tokenId token hmem
    exact List.mem_append_left _ (h.issued row tokenId token hmem)
  · intro req row time hmem
    rcases List.mem_append.mp hmem with hin | heq
    · exact h.exchanged req row time hin
    · exact absurd (List.mem_singleton.mp heq).symm (he req row time)

variable {r : GrantRequest}

/-- A request comes in. -/
theorem Quiet.add (s : GrantState) (hr : heldRecord? r = none) :
    Quiet s (s.add r) := by
  have hsame : Quiet s s := .same rfl rfl rfl
  refine { hsame with held := ?_, pending := ?_, exchanged := ?_ }
  · intro j r' record hj hheld
    rcases Table.get?_add_eq_some.mp hj with ⟨_, rfl⟩ | hold
    · rw [hr] at hheld
      cases hheld
    · exact .inl ⟨j, r', hold, hheld⟩
  · intro j r' row hj _
    exact Table.get?_add_of_some hj r
  · exact fun _ _ _ h => .inl h

/-- A request goes on that has not claimed a code. -/
theorem Quiet.put (h : Quiet s s') (hrequests : s'.requests = s.requests) {r₀ : GrantRequest}
    (hr₀ : s.requests.get? i = some r₀) (hpending : pendingRow? r₀ = none)
    (hheld : ∀ record, heldRecord? r = some record → ∃ j, s.tokens.get? j = some record) :
    Quiet s (s'.put i r) := by
  have hput : ∀ j, (s'.requests.put i r).get? j = if j = i then some r else s.requests.get? j := by
    intro j
    rw [hrequests, Table.get?_put hr₀]
  have hpend : ∀ j r' row, s.requests.get? j = some r' → pendingRow? r' = some row →
      (s'.requests.put i r).get? j = some r' := by
    intro j r' row hj hrow
    rw [hput]
    split
    · next heq =>
      rw [heq, hr₀] at hj
      cases hj
      rw [hpending] at hrow
      cases hrow
    · exact hj
  refine { h with held := ?_, pending := hpend, exchanged := ?_ }
  · intro j r' record hj hrecord
    rw [GrantState.put, hput] at hj
    split at hj
    · cases hj
      exact .inr (hheld record hrecord)
    · exact .inl ⟨j, r', hj, hrecord⟩
  · intro req row time hmem
    rcases h.exchanged req row time hmem with hin | ⟨j, r', hj, hrow⟩
    · exact .inl hin
    · rw [hrequests] at hj
      exact .inr ⟨j, r', hpend j r' row hj hrow, hrow⟩

/-- A request goes on that neither has claimed a code nor holds a record. -/
theorem Quiet.goes {r₀ : GrantRequest} (hr₀ : s.requests.get? i = some r₀)
    (hpending : pendingRow? r₀ = none) (hheld : heldRecord? r = none) : Quiet s (s.put i r) := by
  have hsame : Quiet s s := .same rfl rfl rfl
  apply hsame.put rfl hr₀ hpending
  simp [hheld]

theorem heldRecord?_of_isIdle (hr : isIdle r = true) : heldRecord? r = none := by
  unfold heldRecord?
  split
  · cases hr
  · rfl

/-- A request goes on, and nothing has to be known of it. -/
theorem Quiet.putIdle (h : Quiet s s') (hrequests : s'.requests = s.requests) {r₀ : GrantRequest}
    (hr₀ : s.requests.get? i = some r₀) (hpending : pendingRow? r₀ = none) (hr : isIdle r = true) :
    Quiet s (s'.put i r) := by
  apply h.put hrequests hr₀ hpending
  simp [heldRecord?_of_isIdle hr]

theorem quiet_goes {sha256 : String → String} (hr : s.requests.get? i = some r)
    (hpending : pendingRow? r = none) (hheld : heldRecord? r = none)
    (hgoes : Goes sha256 s i r s') : Quiet s s' := by
  have hsame : Quiet s s := .same rfl rfl rfl
  cases hgoes with
  | idle _ hidle => exact hsame.putIdle rfl hr hpending hidle
  | holds | findsCode | readsUser => exact .goes hr rfl rfl
  | draws x hidle =>
    have hdraw : Quiet s { s with drawn := s.drawn ++ [x] } := .same rfl rfl rfl
    exact hdraw.putIdle rfl hr rfl hidle
  | @creates req client userId row r hfresh hunused hclient hscopes hidle =>
    have hcode : Quiet s { s with drawn := s.drawn ++ [row.code], codes := s.codes ++ [row] } :=
      .same rfl rfl rfl
    have hlog := hcode.log (e := .created row client) (by simp)
    exact hlog.putIdle rfl hr rfl hidle
  | @claimFails req client row r hidle =>
    have hclaim : Quiet s (s.claim row).1 := .same rfl rfl rfl
    exact hclaim.putIdle rfl hr rfl hidle
  | @claims req client row hone =>
    have hclaim : Quiet s (s.claim row).1 := .same rfl rfl rfl
    have hput : Quiet s ((s.claim row).1.put i (.exchange req (.creating client row))) :=
      hclaim.put rfl hr rfl (by simp [heldRecord?])
    refine { hput with issued := ?_, exchanged := ?_ }
    · intro row' tokenId token hmem
      exact List.mem_append_left _ hmem
    · intro req' row' time hmem
      rcases List.mem_append.mp hmem with hin | heq
      · exact .inl hin
      · -- the exchange that has claimed the code is the one that goes on
        cases List.mem_singleton.mp heq
        refine .inr ⟨i, .exchange req (.creating client row), ?_, rfl⟩
        exact (Table.get?_put hr _ i).trans (if_pos rfl)
  | issues => cases hpending
  | findsRecord hrecord =>
    apply hsame.put rfl hr rfl
    intro record' hheld
    cases hheld
    exact ⟨_, hrecord⟩
  | refreshes => cases hheld
  | @found req stage record =>
    unfold GrantState.found
    split
    · have hlog := hsame.log (e := .revoked req record) (by simp)
      exact hlog.put rfl hr rfl (by simp [heldRecord?])
    · exact .goes hr rfl rfl
  | @revokes req record current r hcurrent hidle =>
    have hrevoke : Quiet s { s with
        tokens := s.tokens.put record.tokenId { current with revoked := true } } := by
      refine .extend (Table.next_put _ _ _) ?_ rfl rfl
      intro j record' hrecord'
      rw [Table.get?_put hcurrent] at hrecord'
      split at hrecord'
      · next heq =>
        cases hrecord'
        exact ⟨current, heq ▸ hcurrent, .inr rfl⟩
      · exact ⟨record', hrecord', .inl rfl⟩
    have hlog := hrevoke.log (e := .revoked req record) (by simp)
    exact hlog.putIdle rfl hr rfl hidle
  | @accepts req decoded context r huser hclient hscopes hidle =>
    have hlog := hsame.log (e := .accepted i req.token context) (by simp)
    exact hlog.putIdle rfl hr rfl hidle

theorem quiet_step {rt : UrlRuntime} {sha256 : String → String} {a : GrantAction}
    (ha : ∀ i draw r, a = .next i draw → s.requests.get? i = some r →
      pendingRow? r = none ∧ heldRecord? r = none)
    (hstep : s.step rt sha256 a = some s') : Quiet s s' := by
  cases a with
  | tick _ | setClients _ | setUsers _ =>
    cases hstep
    exact .same rfl rfl rfl
  | deleteClient clientId =>
    cases hstep
    refine .extend (Table.next_eraseIf _ _) ?_ rfl rfl
    intro j record hrecord
    exact ⟨record, Table.get?_of_get?_eraseIf hrecord, .inl rfl⟩
  | authorize _ | exchange _ | revoke _ | validate _ =>
    cases hstep
    exact .add s rfl
  | refresh req =>
    cases hstep
    have hheld : heldRecord? (.refresh req (refreshStart req)) = none := by
      unfold refreshStart
      split
      · rfl
      · split <;> rfl
    exact .add s hheld
  | next i draw =>
    obtain ⟨r, hr, hgoes⟩ := goes_of_step hstep
    obtain ⟨hpending, hheld⟩ := ha i draw r rfl hr
    exact quiet_goes hr hpending hheld hgoes

end

/-! ## The two statements -/

section

variable {rt : UrlRuntime} {sha256 : String → String} {sign : Json → String} {s s' : GrantState}
  {i : Nat}

/-- The request has failed, and nothing is stored. -/
structure Refused (s s' : GrantState) (i : Nat) (r : GrantRequest) : Prop where
  requests : s'.requests = s.requests.put i r
  tokens : s'.tokens = s.tokens
  events : s'.events = s.events

theorem createTokens_cases {req : ExchangeRequest} {draw : Draw} {client : OAuthClient}
    {row : AuthorizationCode} (h : s.createTokens sign i req draw client row = some s') :
    ((s.tokenTaken s.tokens.next
          (generateAccessToken sign row.clientId row.userId row.scopes row.resource s.now) = true ∨
        s.isRegistered row.clientId = false) ∧
      Refused s s' i (.exchange req (.failed serverError))) ∨
    (s.tokenTaken s.tokens.next
        (generateAccessToken sign row.clientId row.userId row.scopes row.resource s.now) = false ∧
      s.isRegistered row.clientId = true ∧
      ∃ record, record.tokenId = s.tokens.next ∧
        record.accessToken =
          generateAccessToken sign row.clientId row.userId row.scopes row.resource s.now ∧
        SameClaims record row.clientId row.userId row.scopes row.resource s.now ∧
        accessTokenLifetime ≤ record.accessTokenExpiresAt ∧
        s'.tokens = s.tokens.add record ∧
        s'.requests = s.requests.put i (.exchange req (.answered record)) ∧
        s'.events = s.events ++ [.issued row record.tokenId record.accessToken]) := by
  unfold createTokens at h
  split at h
  · cases h
  simp only at h
  split at h
  · next hfails =>
    cases h
    simp only [Bool.or_eq_true, Bool.not_eq_true'] at hfails
    exact .inl ⟨hfails, rfl, rfl, rfl⟩
  · next hroom =>
    cases h
    simp only [Bool.or_eq_true, Bool.not_eq_true', not_or, Bool.not_eq_true,
      Bool.not_eq_false] at hroom
    exact .inr ⟨hroom.1, hroom.2, _, rfl, rfl, ⟨rfl, rfl, rfl, rfl, rfl⟩,
      Nat.le_add_left _ _, rfl, rfl, rfl⟩

variable {record : OAuthToken}

theorem updateToken_cases {req : RefreshRequest} {newScopes : List String}
    (h : s.updateToken sign i req record newScopes = some s') :
    ((s.tokens.get? record.tokenId = none ∨ s.tokenTaken record.tokenId (generateAccessToken sign
          record.clientId record.userId newScopes record.resource s.now) = true) ∧
      Refused s s' i (.refresh req (.failed serverError))) ∨
    (s.tokenTaken record.tokenId (generateAccessToken sign record.clientId record.userId newScopes
        record.resource s.now) = false ∧
      ∃ current updated, s.tokens.get? record.tokenId = some current ∧
        updated.tokenId = current.tokenId ∧ SameOwner current updated ∧
        updated.scopes = newScopes ∧
        updated.accessTokenExpiresAt = s.now + accessTokenLifetime ∧
        updated.accessToken = generateAccessToken sign record.clientId record.userId newScopes
          record.resource s.now ∧
        s'.tokens = s.tokens.put record.tokenId updated ∧
        s'.requests =
          s.requests.put i (.refresh req (.answered updated.accessToken newScopes)) ∧
        s'.events = s.events ++ [.refreshed record.tokenId updated.accessToken]) := by
  unfold updateToken at h
  simp only at h
  split at h
  · next hnone =>
    cases h
    exact .inl ⟨.inl hnone, rfl, rfl, rfl⟩
  · next current hcurrent =>
    split at h
    · next htaken =>
      cases h
      exact .inl ⟨.inr htaken, rfl, rfl, rfl⟩
    · next hroom =>
      cases h
      let updated : OAuthToken :=
        { current with
          accessToken := generateAccessToken sign record.clientId record.userId newScopes
            record.resource s.now
          accessTokenExpiresAt := s.now + accessTokenLifetime
          scopes := newScopes }
      exact .inr ⟨Bool.eq_false_iff.mpr hroom, current, updated, hcurrent, rfl, ⟨rfl, rfl, rfl⟩,
        rfl, rfl, rfl, rfl, rfl, rfl⟩

/-- A step is one of the two statements, or stores no token. -/
theorem signStep_cases {a : GrantAction} (h : signStep rt sha256 sign s a = some s') :
    (∃ i draw req client row, a = .next i draw ∧
      s.requests.get? i = some (.exchange req (.creating client row)) ∧
      s.createTokens sign i req draw client row = some s') ∨
    (∃ i draw req record newScopes, a = .next i draw ∧
      s.requests.get? i = some (.refresh req (.updating record newScopes)) ∧
      s.updateToken sign i req record newScopes = some s') ∨
    ((∀ i draw r, a = .next i draw → s.requests.get? i = some r →
      pendingRow? r = none ∧ heldRecord? r = none) ∧ Quiet s s') := by
  unfold signStep at h
  split at h
  · next i draw =>
    split at h
    · next req client row hr => exact .inl ⟨i, draw, req, client, row, rfl, hr, h⟩
    · next req record newScopes hr =>
      exact .inr (.inl ⟨i, draw, req, record, newScopes, rfl, hr, h⟩)
    · next hcreating hupdating =>
      have hquiet : ∀ i' draw' r, GrantAction.next i draw = .next i' draw' →
          s.requests.get? i' = some r → pendingRow? r = none ∧ heldRecord? r = none := by
        rintro i' draw' r heq hr
        cases heq
        constructor
        · unfold pendingRow?
          split
          · next req client row => exact absurd hr (hcreating req client row)
          · rfl
        · unfold heldRecord?
          split
          · next req record newScopes => exact absurd hr (hupdating req record newScopes)
          · rfl
      exact .inr (.inr ⟨hquiet, quiet_step hquiet h⟩)
  · next hnext =>
    have hquiet : ∀ i draw r, a = .next i draw →
        s.requests.get? i = some r → pendingRow? r = none ∧ heldRecord? r = none :=
      fun i draw _ heq _ => absurd heq (hnext i draw)
    exact .inr (.inr ⟨hquiet, quiet_step hquiet h⟩)

theorem SameOwner.trans {a b c : OAuthToken} (h : SameOwner a b) (h' : SameOwner b c) :
    SameOwner a c :=
  ⟨h.1.trans h'.1, h.2.1.trans h'.2.1, h.2.2.trans h'.2.2⟩

theorem TokensOk.quiet (h : TokensOk sign s) (hquiet : Quiet s s') : TokensOk sign s' := by
  constructor
  case number =>
    intro j record' hrecord'
    obtain ⟨record, hrecord, rfl | rfl⟩ := hquiet.records j record' hrecord'
    · exact h.number j _ hrecord
    · exact h.number j record hrecord
  case signed =>
    intro j record' hrecord'
    obtain ⟨record, hrecord, rfl | rfl⟩ := hquiet.records j record' hrecord'
    · exact h.signed j _ hrecord
    · exact h.signed j record hrecord
  case distinct =>
    intro j j' record record' hj hj' heq
    obtain ⟨record₀, hrecord, hsame⟩ := hquiet.records j record hj
    obtain ⟨record₀', hrecord', hsame'⟩ := hquiet.records j' record' hj'
    apply h.distinct j j' record₀ record₀' hrecord hrecord'
    rcases hsame with rfl | rfl <;> rcases hsame' with rfl | rfl <;> exact heq
  case held =>
    intro j r record hr hheld
    have hold : record.tokenId < s.tokens.next ∧
        ∀ current, s.tokens.get? record.tokenId = some current → SameOwner record current := by
      rcases hquiet.held j r record hr hheld with ⟨j, r, hr, hheld⟩ | ⟨j, hrecord⟩
      · exact h.held j r record hr hheld
      · obtain rfl := h.number j record hrecord
        refine ⟨Table.lt_next_of_get? hrecord, ?_⟩
        intro current hcurrent
        rw [hrecord] at hcurrent
        cases hcurrent
        exact ⟨rfl, rfl, rfl⟩
    rw [hquiet.next]
    refine ⟨hold.1, ?_⟩
    intro current' hcurrent'
    obtain ⟨current, hcurrent, rfl | rfl⟩ := hquiet.records _ current' hcurrent'
    · exact hold.2 _ hcurrent
    · exact hold.2 current hcurrent

/-- A request that goes on without a record leaves those that hold one. -/
theorem TokensOk.held_put (h : TokensOk sign s) {r₀ r : GrantRequest}
    (hr₀ : s.requests.get? i = some r₀) (hr : heldRecord? r = none) {j : Nat} {r' : GrantRequest}
    (hj : (s.requests.put i r).get? j = some r') (hheld : heldRecord? r' = some record) :
    record.tokenId < s.tokens.next ∧
      ∀ current, s.tokens.get? record.tokenId = some current → SameOwner record current := by
  rw [Table.get?_put hr₀] at hj
  split at hj
  · cases hj
    rw [hr] at hheld
    cases hheld
  · exact h.held j r' record hj hheld

theorem TokensOk.refused (h : TokensOk sign s) {r₀ r : GrantRequest}
    (hr₀ : s.requests.get? i = some r₀) (hr : heldRecord? r = none) (hs : Refused s s' i r) :
    TokensOk sign s' := by
  constructor
  case number => rw [hs.tokens]; exact h.number
  case signed => rw [hs.tokens]; exact h.signed
  case distinct => rw [hs.tokens]; exact h.distinct
  case held =>
    rw [hs.tokens, hs.requests]
    intro j r' record hj hheld
    exact h.held_put hr₀ hr hj hheld

theorem TokensOk.createTokens (h : TokensOk sign s) {req : ExchangeRequest} {draw : Draw}
    {client : OAuthClient} {row : AuthorizationCode}
    (hr : s.requests.get? i = some (.exchange req (.creating client row)))
    (hs : s.createTokens sign i req draw client row = some s') : TokensOk sign s' := by
  rcases createTokens_cases hs with ⟨_, hrefused⟩ |
    ⟨hroom, _, record, hnumber, htoken, hclaims, hexpires, htokens, hrequests, _⟩
  · exact h.refused hr rfl hrefused
  have hfresh : ∀ j record', s.tokens.get? j = some record' →
      record'.accessToken ≠ record.accessToken := by
    intro j record' hrecord' heq
    rw [tokenTaken_eq_true.mpr ⟨j, record', hrecord', ?_, heq.trans htoken⟩] at hroom
    · cases hroom
    · exact Nat.ne_of_lt (Table.lt_next_of_get? hrecord')
  constructor
  case number =>
    rw [htokens]
    intro j record' hrecord'
    rcases Table.get?_add_eq_some.mp hrecord' with ⟨rfl, rfl⟩ | hold
    · exact hnumber
    · exact h.number j record' hold
  case signed =>
    rw [htokens]
    intro j record' hrecord'
    rcases Table.get?_add_eq_some.mp hrecord' with ⟨rfl, rfl⟩ | hold
    · exact ⟨hexpires, htoken.trans (tokenOf_eq hclaims hexpires).symm⟩
    · exact h.signed j record' hold
  case distinct =>
    rw [htokens]
    intro j j' record₁ record₂ hj hj' heq
    rcases Table.get?_add_eq_some.mp hj with ⟨rfl, rfl⟩ | hold
    · rcases Table.get?_add_eq_some.mp hj' with ⟨rfl, _⟩ | hold'
      · rfl
      · exact absurd heq.symm (hfresh j' record₂ hold')
    · rcases Table.get?_add_eq_some.mp hj' with ⟨rfl, rfl⟩ | hold'
      · exact absurd heq (hfresh j record₁ hold)
      · exact h.distinct j j' record₁ record₂ hold hold' heq
  case held =>
    rw [htokens, hrequests]
    intro j r' record' hj hheld
    obtain ⟨hlt, hsame⟩ := h.held_put hr rfl hj hheld
    refine ⟨by rw [Table.next_add]; omega, ?_⟩
    intro current hcurrent
    rcases Table.get?_add_eq_some.mp hcurrent with ⟨heq, _⟩ | hold
    · omega
    · exact hsame current hold

theorem TokensOk.updateToken (h : TokensOk sign s) {req : RefreshRequest} {newScopes : List String}
    (hr : s.requests.get? i = some (.refresh req (.updating record newScopes)))
    (hs : s.updateToken sign i req record newScopes = some s') : TokensOk sign s' := by
  rcases updateToken_cases hs with ⟨_, hrefused⟩ |
    ⟨hroom, current, updated, hcurrent, hnumber, howner, hscopes, hexpires, htoken, htokens,
      hrequests, _⟩
  · exact h.refused hr rfl hrefused
  have hheld : SameOwner record current := (h.held i _ record hr rfl).2 current hcurrent
  have hput : ∀ j, s'.tokens.get? j =
      if j = record.tokenId then some updated else s.tokens.get? j := by
    intro j
    rw [htokens, Table.get?_put hcurrent]
  have hfresh : ∀ j record', s.tokens.get? j = some record' → j ≠ record.tokenId →
      record'.accessToken ≠ updated.accessToken := by
    intro j record' hrecord' hj heq
    rw [tokenTaken_eq_true.mpr ⟨j, record', hrecord', hj, heq.trans htoken⟩] at hroom
    cases hroom
  constructor
  case number =>
    intro j record' hrecord'
    rw [hput] at hrecord'
    split at hrecord'
    · next heq =>
      cases hrecord'
      rw [heq, hnumber, h.number _ current hcurrent]
    · exact h.number j record' hrecord'
  case signed =>
    intro j record' hrecord'
    rw [hput] at hrecord'
    split at hrecord'
    · cases hrecord'
      have hle : accessTokenLifetime ≤ updated.accessTokenExpiresAt := by
        rw [hexpires]
        exact Nat.le_add_left _ _
      obtain ⟨hclient, huser, hresource⟩ := hheld.trans howner
      have hclaims : SameClaims updated record.clientId record.userId newScopes record.resource
          s.now := ⟨hclient.symm, huser.symm, hscopes, by rw [hresource], by rw [hexpires]⟩
      exact ⟨hle, htoken.trans (tokenOf_eq hclaims hle).symm⟩
    · exact h.signed j record' hrecord'
  case distinct =>
    intro j j' record₁ record₂ hj hj' heq
    rw [hput] at hj hj'
    split at hj
    · next hjr =>
      cases hj
      split at hj'
      · next hjr' => rw [hjr, hjr']
      · next hjr' => exact absurd heq.symm (hfresh j' record₂ hj' hjr')
    · next hjr =>
      split at hj'
      · cases hj'
        exact absurd heq (hfresh j record₁ hj hjr)
      · exact h.distinct j j' record₁ record₂ hj hj' heq
  case held =>
    rw [hrequests]
    intro j r' record' hj hheld'
    obtain ⟨hlt, hsame⟩ := h.held_put hr rfl hj hheld'
    refine ⟨by rw [htokens, Table.next_put]; exact hlt, ?_⟩
    intro current' hcurrent'
    rw [hput] at hcurrent'
    split at hcurrent'
    · next heq =>
      cases hcurrent'
      exact (hsame current (heq ▸ hcurrent)).trans howner
    · exact hsame current' hcurrent'

theorem TokensOk.signStep (h : TokensOk sign s) {a : GrantAction}
    (hstep : signStep rt sha256 sign s a = some s') : TokensOk sign s' := by
  rcases signStep_cases hstep with ⟨i, draw, req, client, row, rfl, hr, hs⟩ |
    ⟨i, draw, req, record, newScopes, rfl, hr, hs⟩ | ⟨_, hquiet⟩
  · exact h.createTokens hr hs
  · exact h.updateToken hr hs
  · exact h.quiet hquiet

end

/-! ## What a run stores -/

/-- If the step is one of the two statements, it has room: no other record agrees on what the new
    token says, and the client or the record is there. -/
structure HasRoom (s : GrantState) (a : GrantAction) : Prop where
  insert : ∀ i draw req client row, a = .next i draw →
    s.requests.get? i = some (.exchange req (.creating client row)) →
    s.isRegistered row.clientId = true ∧
      ¬∃ j record, s.tokens.get? j = some record ∧
        SameClaims record row.clientId row.userId row.scopes row.resource s.now
  update : ∀ i draw req record newScopes, a = .next i draw →
    s.requests.get? i = some (.refresh req (.updating record newScopes)) →
    s.tokens.get? record.tokenId ≠ none ∧
      ¬∃ j other, s.tokens.get? j = some other ∧ j ≠ record.tokenId ∧
        SameClaims other record.clientId record.userId newScopes record.resource s.now

/-- If the step is one of the two statements, it stores the token that is answered. -/
structure TokenStored (s : GrantState) (a : GrantAction) (s' : GrantState) : Prop where
  insert : ∀ i draw req client row, a = .next i draw →
    s.requests.get? i = some (.exchange req (.creating client row)) →
    ∃ record, s'.requests.get? i = some (.exchange req (.answered record)) ∧
      s'.tokens.get? record.tokenId = some record ∧
      .issued row record.tokenId record.accessToken ∈ s'.events
  update : ∀ i draw req record newScopes, a = .next i draw →
    s.requests.get? i = some (.refresh req (.updating record newScopes)) →
    ∃ current, s'.tokens.get? record.tokenId = some current ∧
      s'.requests.get? i = some (.refresh req (.answered current.accessToken newScopes))

/-- For each code that has been claimed a record has been stored, or is about to be. -/
def NoneLost (s : GrantState) : Prop :=
  ∀ req row time, .exchanged req row time ∈ s.events →
    (∃ tokenId token, .issued row tokenId token ∈ s.events) ∨
      ∃ i r, s.requests.get? i = some r ∧ pendingRow? r = some row

section

variable {rt : UrlRuntime} {sha256 : String → String} {sign : Json → String} {s s' : GrantState}
  {i : Nat}

theorem Refused.get?_requests {r₀ r : GrantRequest} (h : Refused s s' i r)
    (hr₀ : s.requests.get? i = some r₀) : s'.requests.get? i = some r := by
  rw [h.requests, Table.get?_put hr₀, if_pos rfl]

variable {row : AuthorizationCode} {client : OAuthClient} {req : ExchangeRequest}

theorem hasRoom_insert
    (hr : s.requests.get? i = some (.exchange req (.creating client row))) (draw : Draw) :
    HasRoom s (.next i draw) ↔ s.isRegistered row.clientId = true ∧
      ¬∃ j record, s.tokens.get? j = some record ∧
        SameClaims record row.clientId row.userId row.scopes row.resource s.now := by
  constructor
  · intro h
    exact h.insert i draw req client row rfl hr
  · intro h
    constructor
    all_goals
      rintro _ _ _ _ _ heq hr'
      cases heq
      cases hr.symm.trans hr'
    exact h

variable {record : OAuthToken} {newScopes : List String}

theorem hasRoom_update {req : RefreshRequest}
    (hr : s.requests.get? i = some (.refresh req (.updating record newScopes))) (draw : Draw) :
    HasRoom s (.next i draw) ↔ s.tokens.get? record.tokenId ≠ none ∧
      ¬∃ j other, s.tokens.get? j = some other ∧ j ≠ record.tokenId ∧
        SameClaims other record.clientId record.userId newScopes record.resource s.now := by
  constructor
  · intro h
    exact h.update i draw req record newScopes rfl hr
  · intro h
    constructor
    all_goals
      rintro _ _ _ _ _ heq hr'
      cases heq
      cases hr.symm.trans hr'
    exact h

theorem tokenStored_insert
    (hr : s.requests.get? i = some (.exchange req (.creating client row))) (draw : Draw) :
    TokenStored s (.next i draw) s' ↔
      ∃ record, s'.requests.get? i = some (.exchange req (.answered record)) ∧
        s'.tokens.get? record.tokenId = some record ∧
        .issued row record.tokenId record.accessToken ∈ s'.events := by
  constructor
  · intro h
    exact h.insert i draw req client row rfl hr
  · intro h
    constructor
    all_goals
      rintro _ _ _ _ _ heq hr'
      cases heq
      cases hr.symm.trans hr'
    exact h

theorem tokenStored_update {req : RefreshRequest}
    (hr : s.requests.get? i = some (.refresh req (.updating record newScopes))) (draw : Draw) :
    TokenStored s (.next i draw) s' ↔ ∃ current, s'.tokens.get? record.tokenId = some current ∧
      s'.requests.get? i = some (.refresh req (.answered current.accessToken newScopes)) := by
  constructor
  · intro h
    exact h.update i draw req record newScopes rfl hr
  · intro h
    constructor
    all_goals
      rintro _ _ _ _ _ heq hr'
      cases heq
      cases hr.symm.trans hr'
    exact h

/-- An insert stores its token exactly when it has room. -/
theorem createTokens_stored_iff (hsign : Function.Injective sign) (h : TokensOk sign s)
    {draw : Draw} (hr : s.requests.get? i = some (.exchange req (.creating client row)))
    (hs : s.createTokens sign i req draw client row = some s') :
    TokenStored s (.next i draw) s' ↔ HasRoom s (.next i draw) := by
  rw [tokenStored_insert hr, hasRoom_insert hr]
  have htaken : s.tokenTaken s.tokens.next (generateAccessToken sign row.clientId row.userId
        row.scopes row.resource s.now) = true ↔ ∃ j record, s.tokens.get? j = some record ∧
      j ≠ s.tokens.next ∧ SameClaims record row.clientId row.userId row.scopes row.resource s.now :=
    tokenTaken_iff hsign h
  rcases createTokens_cases hs with ⟨hfails, hrefused⟩ |
    ⟨hroom, hregistered, record, hnumber, _, _, _, htokens, hrequests, hevents⟩
  · constructor
    · rintro ⟨record, hanswered, _⟩
      rw [hrefused.get?_requests hr] at hanswered
      cases hanswered
    · rintro ⟨hregistered, hnone⟩
      rcases hfails with hclash | hunregistered
      · obtain ⟨j, other, hother, _, hclaims⟩ := htaken.mp hclash
        exact absurd ⟨j, other, hother, hclaims⟩ hnone
      · rw [hregistered] at hunregistered
        cases hunregistered
  · constructor
    · intro _
      refine ⟨hregistered, ?_⟩
      rintro ⟨j, other, hother, hclaims⟩
      have hne : j ≠ s.tokens.next := Nat.ne_of_lt (Table.lt_next_of_get? hother)
      rw [htaken.mpr ⟨j, other, hother, hne, hclaims⟩] at hroom
      cases hroom
    · intro _
      refine ⟨record, ?_, ?_, ?_⟩
      · rw [hrequests, Table.get?_put hr, if_pos rfl]
      · rw [htokens, hnumber, Table.get?_add_next]
      · rw [hevents]
        exact List.mem_append_right _ List.mem_cons_self

/-- An update stores its token exactly when it has room. -/
theorem updateToken_stored_iff (hsign : Function.Injective sign) (h : TokensOk sign s)
    {req : RefreshRequest} {draw : Draw}
    (hr : s.requests.get? i = some (.refresh req (.updating record newScopes)))
    (hs : s.updateToken sign i req record newScopes = some s') :
    TokenStored s (.next i draw) s' ↔ HasRoom s (.next i draw) := by
  rw [tokenStored_update hr, hasRoom_update hr, ← tokenTaken_iff hsign h]
  rcases updateToken_cases hs with ⟨hfails, hrefused⟩ |
    ⟨hroom, current, updated, hcurrent, _, _, _, _, _, htokens, hrequests, _⟩
  · constructor
    · rintro ⟨current, _, hanswered⟩
      rw [hrefused.get?_requests hr] at hanswered
      cases hanswered
    · rintro ⟨hsome, hfree⟩
      rcases hfails with hmissing | hclash
      · exact absurd hmissing hsome
      · exact absurd hclash hfree
  · constructor
    · intro _
      exact ⟨by simp [hcurrent], by simp [hroom]⟩
    · intro _
      refine ⟨updated, ?_, ?_⟩
      · rw [htokens, Table.get?_put hcurrent, if_pos rfl]
      · rw [hrequests, Table.get?_put hr, if_pos rfl]

variable {a : GrantAction}

/-- Every other step has room, and stores what it answers. -/
theorem hasRoom_of_other (ha : ∀ i draw r, a = .next i draw → s.requests.get? i = some r →
      pendingRow? r = none ∧ heldRecord? r = none) : HasRoom s a ∧ TokenStored s a s' := by
  have hinsert : ∀ i draw req client row, a = .next i draw →
      s.requests.get? i ≠ some (.exchange req (.creating client row)) := by
    intro i draw req client row heq hr
    cases (ha i draw _ heq hr).1
  have hupdate : ∀ i draw req record newScopes, a = .next i draw →
      s.requests.get? i ≠ some (.refresh req (.updating record newScopes)) := by
    intro i draw req record newScopes heq hr
    cases (ha i draw _ heq hr).2
  refine ⟨⟨?_, ?_⟩, ⟨?_, ?_⟩⟩
  · exact fun i draw req client row heq hr => absurd hr (hinsert i draw req client row heq)
  · exact fun i draw req record newScopes heq hr =>
      absurd hr (hupdate i draw req record newScopes heq)
  · exact fun i draw req client row heq hr => absurd hr (hinsert i draw req client row heq)
  · exact fun i draw req record newScopes heq hr =>
      absurd hr (hupdate i draw req record newScopes heq)

theorem tokenStored_iff_hasRoom (hsign : Function.Injective sign) (h : TokensOk sign s)
    (hstep : signStep rt sha256 sign s a = some s') :
    TokenStored s a s' ↔ HasRoom s a := by
  rcases signStep_cases hstep with ⟨i, draw, req, client, row, rfl, hr, hs⟩ |
    ⟨i, draw, req, record, newScopes, rfl, hr, hs⟩ | ⟨hother, _⟩
  · exact createTokens_stored_iff hsign h hr hs
  · exact updateToken_stored_iff hsign h hr hs
  · have hboth : HasRoom s a ∧ TokenStored s a s' := hasRoom_of_other hother
    exact ⟨fun _ => hboth.1, fun _ => hboth.2⟩

/-- The conditions of `HasRoom`, computed. -/
def hasRoom (s : GrantState) : GrantAction → Bool
  | .next i _ =>
    match s.requests.get? i with
    | some (.exchange _ (.creating _ row)) =>
      s.isRegistered row.clientId && !s.tokens.any fun _ record =>
        decide (SameClaims record row.clientId row.userId row.scopes row.resource s.now)
    | some (.refresh _ (.updating record newScopes)) =>
      (s.tokens.get? record.tokenId).isSome && !s.tokens.any fun j other =>
        j ≠ record.tokenId &&
          decide (SameClaims other record.clientId record.userId newScopes record.resource s.now)
    | _ => true
  | _ => true

theorem hasRoom_sound (h : s.hasRoom a = true) : HasRoom s a := by
  constructor
  · rintro i draw req client row rfl hr
    simp only [hasRoom, hr, Bool.and_eq_true, Bool.not_eq_true', ← Bool.not_eq_true] at h
    refine ⟨h.1, ?_⟩
    rintro ⟨j, record, hrecord, hclaims⟩
    exact h.2 (Table.any_eq_true.mpr ⟨j, record, hrecord, decide_eq_true hclaims⟩)
  · rintro i draw req record newScopes rfl hr
    simp only [hasRoom, hr, Bool.and_eq_true, Bool.not_eq_true', ← Bool.not_eq_true] at h
    refine ⟨Option.isSome_iff_ne_none.mp h.1, ?_⟩
    rintro ⟨j, other, hother, hj, hclaims⟩
    exact h.2 (Table.any_eq_true.mpr ⟨j, other, hother, by simp [hj, hclaims]⟩)

/-! ## No code is lost -/

theorem NoneLost.quiet (h : NoneLost s) (hquiet : Quiet s s') : NoneLost s' := by
  intro req row time hmem
  rcases hquiet.exchanged req row time hmem with hin | hpending
  · rcases h req row time hin with ⟨tokenId, token, hissued⟩ | ⟨i, r, hr, hrow⟩
    · exact .inl ⟨tokenId, token, hquiet.issued row tokenId token hissued⟩
    · exact .inr ⟨i, r, hquiet.pending i r row hr hrow, hrow⟩
  · exact .inr hpending

/-- A request goes on of which no code waits, or the code of which has its record. -/
theorem NoneLost.put (h : NoneLost s) {r₀ r : GrantRequest} {e : GrantEvent}
    (hr₀ : s.requests.get? i = some r₀) (hrequests : s'.requests = s.requests.put i r)
    (hevents : s'.events = s.events ++ [e]) (he : ∀ req row time, e ≠ .exchanged req row time)
    (hrow : ∀ row, pendingRow? r₀ = some row → ∃ tokenId token, e = .issued row tokenId token) :
    NoneLost s' := by
  intro req row time hmem
  rw [hevents] at hmem ⊢
  have hin : .exchanged req row time ∈ s.events := by
    rcases List.mem_append.mp hmem with hin | heq
    · exact hin
    · exact absurd (List.mem_singleton.mp heq).symm (he req row time)
  rcases h req row time hin with ⟨tokenId, token, hissued⟩ | ⟨j, r', hj, hpending⟩
  · exact .inl ⟨tokenId, token, List.mem_append_left _ hissued⟩
  · by_cases hji : j = i
    · -- the request that goes on has stored the record of its code
      subst hji
      rw [hr₀] at hj
      cases hj
      obtain ⟨tokenId, token, rfl⟩ := hrow row hpending
      exact .inl ⟨tokenId, token, List.mem_append_right _ List.mem_cons_self⟩
    · refine .inr ⟨j, r', ?_, hpending⟩
      rw [hrequests, Table.get?_put hr₀, if_neg hji]
      exact hj

theorem NoneLost.signStep (h : NoneLost s)
    (hstep : signStep rt sha256 sign s a = some s') (hstored : TokenStored s a s') :
    NoneLost s' := by
  rcases signStep_cases hstep with ⟨i, draw, req, client, row, rfl, hr, hs⟩ |
    ⟨i, draw, req, record, newScopes, rfl, hr, hs⟩ | ⟨_, hquiet⟩
  · rcases createTokens_cases hs with ⟨_, hrefused⟩ |
      ⟨_, _, record, _, _, _, _, _, hrequests, hevents⟩
    · obtain ⟨record, hanswered, _⟩ := (tokenStored_insert hr draw).mp hstored
      rw [hrefused.get?_requests hr] at hanswered
      cases hanswered
    · apply h.put hr hrequests hevents (by simp)
      intro row' hrow
      cases hrow
      exact ⟨_, _, rfl⟩
  · rcases updateToken_cases hs with ⟨_, hrefused⟩ |
      ⟨_, current, updated, _, _, _, _, _, _, _, hrequests, hevents⟩
    · obtain ⟨current, _, hanswered⟩ := (tokenStored_update hr draw).mp hstored
      rw [hrefused.get?_requests hr] at hanswered
      cases hanswered
    · apply h.put hr hrequests hevents (by simp)
      intro row hrow
      cases hrow
  · exact h.quiet hquiet

end

/-! ## Every run -/

theorem access_tokens_stored_iff (rt : UrlRuntime) (sha256 : String → String)
    (sign : Json → String) (clients : List OAuthClient) (users : List OAuthUser) (now : Nat)
    (trs : List (Transition GrantState GrantAction)) (s : GrantState)
    (hsign : Function.Injective sign)
    (h : IsRun (signStep rt sha256 sign) (init clients users now) trs s) :
    ((∀ tr ∈ trs, TokenStored tr.pre tr.act tr.post) ∧ NoneLost s ∧
      ∀ j j' record record', s.tokens.get? j = some record → s.tokens.get? j' = some record' →
        record.accessToken = record'.accessToken → j = j') ↔
    ∀ tr ∈ trs, HasRoom tr.pre tr.act := by
  have hok : ∀ {xs t}, IsRun (signStep rt sha256 sign) (init clients users now) xs t →
      TokensOk sign t := by
    intro xs t hrun
    exact hrun.invariant (fun _ _ _ hok hstep => hok.signStep hstep)
      (tokensOk_init sign clients users now)
  have hiff : ∀ tr ∈ trs, TokenStored tr.pre tr.act tr.post ↔ HasRoom tr.pre tr.act := by
    intro tr htr
    obtain ⟨xs, ys, rfl⟩ := List.append_of_mem htr
    obtain ⟨hbefore, hstep, _⟩ := h.split
    exact tokenStored_iff_hasRoom hsign (hok hbefore) hstep
  constructor
  · rintro ⟨hstored, _, _⟩ tr htr
    exact (hiff tr htr).mp (hstored tr htr)
  · intro hroom
    have hstored : ∀ tr ∈ trs, TokenStored tr.pre tr.act tr.post :=
      fun tr htr => (hiff tr htr).mpr (hroom tr htr)
    refine ⟨hstored, ?_, (hok h).distinct⟩
    apply h.history_of (G := fun tr => TokenStored tr.pre tr.act tr.post)
      (P := fun _ t => NoneLost t) _ _ hstored
    · intro req row time hmem
      cases hmem
    · intro _ t a t' _ hlost hstep hstored
      exact hlost.signStep hstep hstored

/-! ## Runs -/

/-- The first part of a token. -/
def jwtHeader : String := "eyJhbGciOiJIUzI1NiIsInR5cCI6IkpXVCJ9."

/-- A last part, which is the same for all payloads here. -/
def jwtSignature : String := ".c2lnbmF0dXJl"

def jwtSign (a : Json) : String :=
  jwtHeader ++ String.ofList (Base64.encode (Utf8.encode (Json.stringify a).toList)) ++ jwtSignature

theorem jwtSign_injective : Function.Injective jwtSign := by
  intro a b h
  simp only [jwtSign, String.append_left_inj, String.append_right_inj, String.ofList_inj] at h
  have hbytes := congrArg Base64.decode h
  rw [Base64.decode_encode, Base64.decode_encode] at hbytes
  have hchars := congrArg Utf8.decode hbytes
  rw [Utf8.decode_encode, Utf8.decode_encode] at hchars
  exact Json.stringify_injective (String.toList_injective hchars)

/-- The token is refreshed a second later. -/
def refreshActions : List GrantAction :=
  [.tick 1000, .refresh ⟨some "r1", none, ⟨some "app", none⟩⟩, .next 2 (drawOf "app" "" ""),
    .next 2 (drawOf "app" "" ""), .next 2 (drawOf "app" "" "")]

theorem access_tokens_stored_refreshActions :
    ∃ trs s, IsRun (signStep grantRuntime s256 jwtSign) grantInit trs s ∧ NoneLost s ∧
      s.events.length = 4 ∧ ∀ tr ∈ trs, TokenStored tr.pre tr.act tr.post := by
  have hobs : (exec (signStep grantRuntime s256 jwtSign) grantInit
        (issueActions ++ refreshActions)).map (·.events.length) = some 4 ∧
      (trace (signStep grantRuntime s256 jwtSign) grantInit
        (issueActions ++ refreshActions)).all (fun tr => tr.pre.hasRoom tr.act) = true := by
    decide +kernel
  obtain ⟨s, hs, hlength⟩ := Option.map_eq_some_iff.mp hobs.1
  have hrun := isRun_trace _ _ _ hs
  have hroom := (access_tokens_stored_iff _ _ _ _ _ _ _ s jwtSign_injective hrun).mpr
    fun tr htr => hasRoom_sound (List.all_eq_true.mp hobs.2 tr htr)
  exact ⟨_, s, hrun, hroom.2.1, hlength, hroom.1⟩

/-- Two codes of one user and client are exchanged within a second. -/
def clashActions : List GrantAction :=
  [.authorize authorizeRequest, .next 0 (drawOf "app" "" ""), .next 0 (drawOf "app" "c0de" ""),
    .authorize authorizeRequest, .next 1 (drawOf "app" "" ""), .next 1 (drawOf "app" "c1de" ""),
    .exchange exchangeRequest, .next 2 (drawOf "app" "" ""), .next 2 (drawOf "app" "" ""),
    .next 2 (drawOf "app" "" ""), .next 2 (drawOf "app" "r1" ""), .tick 400,
    .exchange { exchangeRequest with code := some "c1de" }, .next 3 (drawOf "app" "" ""),
    .next 3 (drawOf "app" "" ""), .next 3 (drawOf "app" "" ""), .next 3 (drawOf "app" "r2" "")]

def claims (code : String) : GrantEvent → Bool
  | .exchanged _ row _ => row.code = code
  | _ => false

def issues (code : String) : GrantEvent → Bool
  | .issued row _ _ => row.code = code
  | _ => false

theorem second_code_lost :
    ¬ ∀ (rt : UrlRuntime) (sha256 : String → String) (sign : Json → String)
      (clients : List OAuthClient) (users : List OAuthUser) (now : Nat)
      (trs : List (Transition GrantState GrantAction)) (s : GrantState),
      Function.Injective sign → IsRun (signStep rt sha256 sign) (init clients users now) trs s →
      (∀ tr ∈ trs, TokenStored tr.pre tr.act tr.post) ∧ NoneLost s := by
  intro h
  have hobs : (exec (signStep grantRuntime s256 jwtSign) grantInit clashActions).map (fun s =>
      (s.events.any (claims "c1de"), s.events.any (issues "c1de"),
        s.requests.any fun _ r => (pendingRow? r).isSome)) = some (true, false, false) := by
    decide +kernel
  obtain ⟨s, hs, hobs⟩ := Option.map_eq_some_iff.mp hobs
  simp only [Prod.mk.injEq] at hobs
  obtain ⟨hexchanged, hissued, hpending⟩ := hobs
  obtain ⟨e, hmem, he⟩ := List.any_eq_true.mp hexchanged
  obtain ⟨_, hlost⟩ := h _ _ _ _ _ _ _ s jwtSign_injective (isRun_trace _ _ _ hs)
  cases e with
  | exchanged req row time =>
    rcases hlost req row time hmem with ⟨tokenId, token, hin⟩ | ⟨i, r, hr, hrow⟩
    · have hany : s.events.any (issues "c1de") = true := List.any_eq_true.mpr ⟨_, hin, he⟩
      rw [hissued] at hany
      cases hany
    · have hany : (s.requests.any fun _ r => (pendingRow? r).isSome) = true :=
        Table.any_eq_true.mpr ⟨i, r, hr, by rw [hrow]; rfl⟩
      rw [hpending] at hany
      cases hany
  | created | issued | refreshed | revoked | accepted => cases he

end GrantState

end PetaCore
