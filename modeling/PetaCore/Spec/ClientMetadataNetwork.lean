import PetaCore.Core.ClientMetadataNetwork

/-!
# Client metadata is fetched from public addresses

The blocked IPv6 ranges have the mapped addresses, those of NAT64 and of 6to4 and the Teredo
addresses, so that none of these is a way to a blocked IPv4 address. The IPv4-compatible addresses
are not among them but for the first two.

## Key results

- `addressError?_eq_none`: what an address that is accepted is
- `not_embeds_of_not_within`: an IPv6 address outside the ranges embeds nothing blocked, unless it is
  an IPv4-compatible one
- `public_targets_iff`: the accepted addresses are public unless one of them is such an address
-/

namespace PetaCore

namespace ClientMetadataNetwork

open IpAddress

/-! ## Texts of addresses -/

variable {x : Address} {text : String}

/-- An address is not in brackets. -/
theorem unbracketIpv6Hostname_of_read (h : read text = some x) :
    unbracketIpv6Hostname text = text := by
  rw [unbracketIpv6Hostname]
  split
  · next rest htext =>
    have htext' : text = String.ofList ('[' :: rest) := by
      rw [← htext, String.ofList_toList]
    rw [htext', read_bracket] at h
    cases h
  · rfl

/-- What the checks read is the address itself. -/
theorem read_normalized (h : read text = some x) :
    read (unbracketIpv6Hostname text.toLower) = some x := by
  have hlower : read text.toLower = some x := by rw [read_toLower, h]
  rw [unbracketIpv6Hostname_of_read hlower, hlower]

theorem isFakeIpAddress_of_read (h : read text = some x) :
    isFakeIpAddress text = true ↔ ∃ y, x = .ipv4 y ∧ Within fakeIpRanges y := by
  rw [isFakeIpAddress, read_normalized h]
  cases x with
  | ipv4 _ | ipv6 _ => simp

theorem isPublicIpAddress_ipv4 {x : BitVec 32} (h : read text = some (.ipv4 x)) :
    isPublicIpAddress text = true ↔ ¬ Within fakeIpRanges x ∧ ¬ Within blockedIpv4Ranges x := by
  have hfake := isFakeIpAddress_of_read (read_normalized h)
  simp only [Address.ipv4.injEq, exists_eq_left'] at hfake
  simp only [isPublicIpAddress, read_normalized h]
  split
  · next hyes => simp [hfake.mp hyes]
  · next hno => simp [mt hfake.mpr hno]

theorem isPublicIpAddress_ipv6 {x : BitVec 128} (h : read text = some (.ipv6 x)) :
    isPublicIpAddress text = true ↔ ¬ Within blockedIpv6Ranges x := by
  simp only [isPublicIpAddress, read_normalized h]
  simp

/-! ## Embedded addresses -/

/-- An IPv4-compatible address of a blocked IPv4 address. -/
def CompatibleOfBlocked (x : BitVec 128) : Prop :=
  x.extractLsb' 32 96 = 0 ∧ Within blockedIpv4Ranges (x.extractLsb' 0 32)

/-- The mapped, NAT64, 6to4 and Teredo blocks are blocked, and no fake block meets a blocked one. -/
theorem ranges_checked :
    (∀ r ∈ [(0xffff00000000, 96), (0x64ff9b000000000000000000000000, 96),
      (0x20020000000000000000000000000000, 16), (0x20010000000000000000000000000000, 32)],
      r ∈ blockedIpv6Ranges) ∧
    ∀ r ∈ fakeIpRanges, ∀ s ∈ blockedIpv4Ranges, ¬Agree (min r.2 s.2) r.1 s.1 := by
  decide +kernel

/-- The blocked ranges have the embeddings but for the IPv4-compatible one. -/
theorem not_embeds_of_not_within {x : BitVec 128} (h : ¬ Within blockedIpv6Ranges x)
    {v : BitVec 32} (hv : Embeds x v) (hblocked : Within blockedIpv4Ranges v) :
    CompatibleOfBlocked x := by
  have hrange : ∀ (start : BitVec 128) (m n : Nat), (start, n) ∈ blockedIpv6Ranges → 128 = m + n →
      x.extractLsb' m n ≠ start.extractLsb' m n := by
    intro start m n hmem hw heq
    exact h ⟨(start, n), hmem, (agree_iff_extractLsb' hw start x).mpr heq.symm⟩
  cases hv with
  | mapped hstart =>
    exact absurd hstart (hrange 0xffff00000000 32 96 (ranges_checked.1 _ (by simp)) rfl)
  | compatible hstart => exact ⟨hstart, hblocked⟩
  | nat64 hstart =>
    exact absurd hstart (hrange 0x64ff9b000000000000000000000000 32 96 (ranges_checked.1 _ (by simp)) rfl)
  | sixToFour hstart =>
    exact absurd hstart
      (hrange 0x20020000000000000000000000000000 112 16 (ranges_checked.1 _ (by simp)) rfl)
  | teredoServer hstart | teredoClient hstart =>
    exact absurd hstart
      (hrange 0x20010000000000000000000000000000 96 32 (ranges_checked.1 _ (by simp)) rfl)

/-! ## The target -/

/-- The addresses are accepted when each is public, or a fake one that a resolver gave. -/
theorem addressError?_eq_none (direct allowFakeIp : Bool) (addresses : List String) :
    addressError? direct allowFakeIp addresses = none ↔
      ∀ address ∈ addresses, isPublicIpAddress address = true ∨
        (isFakeIpAddress address = true ∧ direct = false ∧ allowFakeIp = true) := by
  induction addresses with
  | nil => simp [addressError?]
  | cons address addresses ih =>
    rw [List.forall_mem_cons, addressError?]
    by_cases hpublic : isPublicIpAddress address = true
    · rw [if_pos hpublic, ih]
      simp [hpublic]
    · rw [if_neg hpublic, or_iff_right hpublic]
      cases isFakeIpAddress address <;> cases direct <;> cases allowFakeIp <;> simp [ih]

/-- What an address has to be that metadata is fetched from; `fakeIp` says whether it may be a fake
    one. -/
def IsPublicTarget (fakeIp : Prop) (address : String) : Prop :=
  (∃ x, read address = some (.ipv4 x) ∧ ¬ Within blockedIpv4Ranges x ∧
    (Within fakeIpRanges x → fakeIp)) ∨
  ∃ x, read address = some (.ipv6 x) ∧ ¬ Within blockedIpv6Ranges x ∧
    ∀ v, Embeds x v → ¬ Within blockedIpv4Ranges v

/-- No fake address is in a blocked range. -/
theorem not_within_of_fake {x : BitVec 32} (h : Within fakeIpRanges x) :
    ¬ Within blockedIpv4Ranges x :=
  not_within_of_apart ranges_checked.2 h

theorem isPublicTarget_iff {address : String} (hread : read address = some x)
    {direct allowFakeIp : Bool}
    (haccepted : isPublicIpAddress address = true ∨
      (isFakeIpAddress address = true ∧ direct = false ∧ allowFakeIp = true)) :
    IsPublicTarget (direct = false ∧ allowFakeIp = true) address ↔
      ¬ ∃ y, x = .ipv6 y ∧ CompatibleOfBlocked y := by
  simp only [IsPublicTarget, hread, Option.some.injEq]
  cases x with
  | ipv4 y =>
    have hfake := isFakeIpAddress_of_read hread
    simp only [Address.ipv4.injEq, exists_eq_left'] at hfake
    have hgood : ¬ Within blockedIpv4Ranges y ∧
        (Within fakeIpRanges y → direct = false ∧ allowFakeIp = true) := by
      rcases haccepted with hpublic | ⟨hyes, hallowed⟩
      · obtain ⟨hno, hblocked⟩ := (isPublicIpAddress_ipv4 hread).mp hpublic
        exact ⟨hblocked, fun h => absurd h hno⟩
      · exact ⟨not_within_of_fake (hfake.mp hyes), fun _ => hallowed⟩
    simpa using hgood
  | ipv6 y =>
    have hblocked : ¬ Within blockedIpv6Ranges y := by
      rcases haccepted with hpublic | ⟨hyes, -⟩
      · exact (isPublicIpAddress_ipv6 hread).mp hpublic
      · obtain ⟨z, hz, -⟩ := (isFakeIpAddress_of_read hread).mp hyes
        cases hz
    have hembeds : (∀ v, Embeds y v → ¬ Within blockedIpv4Ranges v) ↔ ¬ CompatibleOfBlocked y := by
      constructor
      · rintro hall ⟨hstart, hwithin⟩
        exact hall _ (.compatible hstart) hwithin
      · intro hcompatible v hv hwithin
        exact hcompatible (not_embeds_of_not_within hblocked hv hwithin)
    simp [hblocked, hembeds]

/-- The addresses are contacted in turn. -/
theorem contacted_first {ρ : Type} (fromAddress : String → Except String ρ)
    (addresses : List String) (lastError : Option String) :
    (fetchPinnedMetadataDocument fromAddress addresses lastError).1 <+: addresses := by
  induction addresses generalizing lastError with
  | nil => exact List.prefix_refl []
  | cons address addresses ih =>
    rw [fetchPinnedMetadataDocument]
    cases fromAddress address with
    | ok response => exact (List.prefix_cons_inj address).mpr List.nil_prefix
    | error error => exact (List.prefix_cons_inj address).mpr (ih (some error))

/-- The addresses are those of the URL's host, and none of them is refused. -/
structure TargetOk (lookup : String → Option (List String)) (setting : Option String)
    (parsedUrl : Url) (addresses : List String) : Prop where
  host : hostAddresses lookup parsedUrl = some addresses
  accepted : addressError? (isDirect parsedUrl) (allowFakeIpClientMetadata setting) addresses = none

theorem validatePublicNetworkTarget_eq_valid {parse : String → Option Url}
    {lookup : String → Option (List String)} {setting : Option String} {url : String}
    {parsedUrl : Url} {addresses : List String} (hparse : parse url = some parsedUrl)
    (h : validatePublicNetworkTarget parse lookup setting url = some (.valid addresses)) :
    TargetOk lookup setting parsedUrl addresses := by
  simp only [validatePublicNetworkTarget, hparse] at h
  split at h
  · cases h
  · split at h
    · cases h
    · cases h
    · next found _ hhost =>
      split at h
      · cases h
      · next herror =>
        obtain rfl := ValidationResult.valid.inj (Option.some.inj h)
        exact ⟨hhost, herror⟩

/-- The addresses that a URL is accepted with are those of its host. They are public just when none
    of them is the IPv4-compatible address of a blocked one, and no other is contacted. -/
theorem public_targets_iff {parse : String → Option Url}
    {lookup : String → Option (List String)} {setting : Option String} {url : String}
    {parsedUrl : Url} {addresses : List String} {ρ : Type}
    (hlookup : ∀ hostname answers, lookup hostname = some answers →
      ∀ address ∈ answers, (read address).isSome = true)
    (hparse : parse url = some parsedUrl)
    (h : validatePublicNetworkTarget parse lookup setting url = some (.valid addresses))
    (fromAddress : String → Except String ρ) :
    hostAddresses lookup parsedUrl = some addresses ∧
    ((∀ address ∈ addresses, IsPublicTarget (isDirect parsedUrl = false ∧
        allowFakeIpClientMetadata setting = true) address) ↔
      ∀ address ∈ addresses, ¬ ∃ x, read address = some (.ipv6 x) ∧ CompatibleOfBlocked x) ∧
    ∀ address ∈ (fetchPinnedMetadataDocument fromAddress addresses none).1,
      address ∈ addresses := by
  obtain ⟨hhost, herror⟩ := validatePublicNetworkTarget_eq_valid hparse h
  refine ⟨hhost, ?_, fun address hmem => (contacted_first fromAddress addresses
    none).subset hmem⟩
  have hread : ∀ address ∈ addresses, (read address).isSome = true := by
    intro address hmem
    rw [hostAddresses] at hhost
    split at hhost
    · next hdirect =>
      cases hhost
      obtain rfl := List.mem_singleton.mp hmem
      exact hdirect
    · exact hlookup _ _ hhost address hmem
  have haccepted := (addressError?_eq_none _ _ addresses).mp herror
  refine forall₂_congr fun address hmem => ?_
  obtain ⟨x, hx⟩ := Option.isSome_iff_exists.mp (hread address hmem)
  rw [isPublicTarget_iff hx (haccepted address hmem)]
  simp only [hx, Option.some.injEq]

/-- A resolver that knows one host. -/
def exampleLookup (hostname : String) : Option (List String) :=
  if hostname = "client.example" then some ["93.184.216.34", "2606:2800:220::c07:23"] else none

def exampleParse (url : String) : Option Url :=
  if url = "https://client.example/metadata.json" then
    some ⟨"https", "", "", some "client.example", none, "/metadata.json", none, none⟩
  else if url = "https://[::7f00:1]/metadata.json" then
    some ⟨"https", "", "", some "[::7f00:1]", none, "/metadata.json", none, none⟩
  else none

theorem read_exampleLookup : ∀ hostname answers, exampleLookup hostname = some answers →
    ∀ address ∈ answers, (read address).isSome = true := by
  intro hostname answers h
  rw [exampleLookup] at h
  split at h
  · cases h
    decide +kernel
  · cases h

theorem public_targets_iff_example :
    (∀ address ∈ ["93.184.216.34", "2606:2800:220::c07:23"],
      IsPublicTarget (isDirect ⟨"https", "", "", some "client.example", none, "/metadata.json",
        none, none⟩ = false ∧ allowFakeIpClientMetadata none = true) address) ↔
    ∀ address ∈ ["93.184.216.34", "2606:2800:220::c07:23"],
      ¬ ∃ x, read address = some (.ipv6 x) ∧ CompatibleOfBlocked x := by
  have hvalid : validatePublicNetworkTarget exampleParse exampleLookup none
      "https://client.example/metadata.json" =
        some (.valid ["93.184.216.34", "2606:2800:220::c07:23"]) := by decide +kernel
  exact (public_targets_iff read_exampleLookup (by decide +kernel) hvalid
    (fun _ => Except.ok ())).2.1

/-- The loopback address is reached as an IPv4-compatible address. -/
theorem compatible_loopback_accepted : ¬ ∀ (parse : String → Option Url)
    (lookup : String → Option (List String)) (setting : Option String) (url : String)
    (parsedUrl : Url) (addresses : List String),
    (∀ hostname answers, lookup hostname = some answers →
      ∀ address ∈ answers, (read address).isSome = true) →
    parse url = some parsedUrl →
    validatePublicNetworkTarget parse lookup setting url = some (.valid addresses) →
    ∀ address ∈ addresses, IsPublicTarget (isDirect parsedUrl = false ∧
      allowFakeIpClientMetadata setting = true) address := by
  intro h
  have htarget := h exampleParse exampleLookup none "https://[::7f00:1]/metadata.json" _
    ["::7f00:1"] read_exampleLookup rfl (by decide +kernel) "::7f00:1" (List.mem_singleton_self _)
  have hread : read "::7f00:1" = some (.ipv6 0x7f000001) := by decide +kernel
  rcases htarget with ⟨x, hx, -⟩ | ⟨x, hx, -, hembeds⟩
  · rw [hread] at hx
    cases hx
  · rw [hread] at hx
    obtain rfl := Address.ipv6.inj (Option.some.inj hx)
    exact hembeds _ (.compatible (by decide)) (by decide +kernel)

end ClientMetadataNetwork

end PetaCore
