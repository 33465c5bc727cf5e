import PetaCore.ForStd.JsonPieces
import PetaCore.Core.LaunchConfig

/-!
# Credentials in a launch config

The credentials of a user are meant to go into the strings of a template, where its placeholders
are. They are put into the text of the template, so that this holds as long as the text with a
credential is the text of the template with the credential.

## Key results

- `AuthConf.fill`: the replacement in a string
- `Safe`: the credentials that keep to the strings of a config
- `safe_of_plain`: plain credentials and strings
- `credentials_fill_strings`: with safe credentials, nothing but the strings changes
-/

namespace PetaCore

open Json

namespace UserRequestHandler

/-- What an entry does to a string of the config. -/
def fill (auth : AuthConf) (s : String) : String :=
  match auth.key, auth.value with
  | some (.str key), some (.str value) =>
    if isStringReplacement auth.dataType then replaceIn key.toList value.toList s else s
  | _, _ => s

/-- The entries of a request, one after the other. -/
def fillAll (authConf : List AuthConf) (s : String) : String :=
  authConf.foldl (fun s auth => fill auth s) s

/-- The replacement that an entry stands for keeps to the strings of a config. -/
def SafeEntry (auth : AuthConf) (config : Json) : Prop :=
  ∀ key value, auth.key = some (.str key) → auth.value = some (.str value) →
    isStringReplacement auth.dataType = true → Keeps key.toList value.toList config

/-- Every entry keeps to the strings of the config with the entries before it. -/
def Safe : List AuthConf → Json → Prop
  | [], _ => True
  | auth :: authConf, config => SafeEntry auth config ∧ Safe authConf (mapStrings (fill auth) config)

/-! ## Values with other strings -/

theorem mapStrings_eq_self {f : String → String} {a : Json}
    (h : ∀ s, .leaf s ∈ pieces a → f s = s) : mapStrings f a = a := by
  apply stringify_injective
  rw [stringify, stringify, ← flatMap_pieces, ← flatMap_pieces, pieces_mapStrings,
    map_mapLeaf_eq_self h]

theorem mapStrings_mapStrings (f g : String → String) (a : Json) :
    mapStrings g (mapStrings f a) = mapStrings (fun s => g (f s)) a := by
  apply stringify_injective
  rw [stringify, stringify, ← flatMap_pieces, ← flatMap_pieces, pieces_mapStrings,
    pieces_mapStrings, pieces_mapStrings, List.map_map]
  congr 3
  funext p
  cases p <;> rfl

/-! ## One entry after the other -/

variable {auth : AuthConf} {config : Json}

theorem applyAuth_eq {config' : Json} (hheld : config.Held)
    (hsafe : SafeEntry auth config) (h : applyAuth config auth = .ok config') :
    config' = mapStrings (fill auth) config := by
  have hsame : ∀ hfill : ∀ s, fill auth s = s, mapStrings (fill auth) config = config :=
    fun hfill => mapStrings_eq_self fun s _ => hfill s
  unfold applyAuth at h
  split at h
  · rename_i key value hkey hvalue
    split at h
    · cases h
    · rename_i hne
      split at h
      · rename_i htype
        have hnil : key.toList ≠ [] := fun hnil => hne (String.toList_eq_nil_iff.mp hnil)
        have hparse := parse_replace hnil hheld (hsafe key value hkey hvalue htype)
        have hfill : fill auth = replaceIn key.toList value.toList := by
          funext s
          simp [fill, hkey, hvalue, htype]
        rw [hfill]
        simp only [hparse, Except.ok.injEq] at h
        exact h.symm
      · rename_i htype
        rw [hsame fun s => by simp [fill, hkey, hvalue, htype]]
        exact (Except.ok.inj h).symm
  · cases h

variable {authConf : List AuthConf}

/-- By induction over the entries; each is applied to what the ones before it have made. -/
theorem foldlM_applyAuth_eq {config' : Json} (hheld : config.Held) (hsafe : Safe authConf config)
    (h : authConf.foldlM applyAuth config = .ok config') :
    config' = mapStrings (fillAll authConf) config := by
  induction authConf generalizing config with
  | nil =>
    have hself : mapStrings (fillAll []) config = config := mapStrings_eq_self fun s _ => rfl
    rw [hself]
    exact (Except.ok.inj h).symm
  | cons auth authConf ih =>
    rw [List.foldlM_cons] at h
    cases hfirst : applyAuth config auth with
    | error error => rw [hfirst] at h; cases h
    | ok first =>
      rw [hfirst] at h
      obtain rfl := applyAuth_eq hheld hsafe.1 hfirst
      have hrest := ih (held_mapStrings (fill auth) config hheld) hsafe.2 h
      rw [hrest, mapStrings_mapStrings]
      rfl

/-! ## Plain credentials -/

/-- An entry with plain texts, of which the key occurs in no name and not outside the strings. -/
structure PlainEntry (auth : AuthConf) (config : Json) : Prop where
  key : ∀ key, auth.key = some (.str key) → ∀ c ∈ key.toList, isPlain c = true
  value : ∀ value, auth.value = some (.str value) → ∀ c ∈ value.toList, isPlain c = true
  outside : ∀ key, auth.key = some (.str key) →
    ¬key.toList <:+: (pieces config).flatMap Piece.bare
  names : ∀ key, auth.key = some (.str key) → ∀ s, .name s ∈ pieces config →
    ¬key.toList <:+: body s

def PlainStrings (config : Json) : Prop :=
  ∀ s, .leaf s ∈ pieces config → ∀ c ∈ s.toList, isPlain c = true

theorem PlainEntry.safe (h : PlainEntry auth config)
    (hstrings : PlainStrings config) : SafeEntry auth config := by
  intro key value hkey hvalue _
  refine Or.inr ⟨fun hquote => ?_, h.outside key hkey, fun p hp => ?_⟩
  · have hplain := h.key key hkey '"' hquote
    cases hplain
  · cases p with
    | plain c => trivial
    | name s => exact h.names key hkey s hp
    | leaf s => exact Piece.keeps_leaf_of_plain (hstrings s hp) (h.value value hvalue)

/-- Outside the strings a filled config is the one before. -/
theorem PlainEntry.mapStrings (h : PlainEntry auth config)
    (f : String → String) : PlainEntry auth (mapStrings f config) := by
  refine ⟨h.key, h.value, fun key hkey => ?_, fun key hkey s hs => ?_⟩
  · have hbare : ∀ p : Piece, (p.mapLeaf f).bare = p.bare := by
      intro p
      cases p <;> rfl
    rw [pieces_mapStrings, List.flatMap_map]
    simp only [hbare]
    exact h.outside key hkey
  · rw [pieces_mapStrings, List.mem_map] at hs
    obtain ⟨p, hp, hname⟩ := hs
    cases p with
    | plain c => cases hname
    | name s' =>
      cases hname
      exact h.names key hkey s hp
    | leaf s' => cases hname

theorem PlainStrings.fill (h : PlainStrings config)
    (hauth : PlainEntry auth config) : PlainStrings (Json.mapStrings (fill auth) config) := by
  intro s hs c hc
  rw [pieces_mapStrings, List.mem_map] at hs
  obtain ⟨p, hp, hleaf⟩ := hs
  cases p with
  | plain c => cases hleaf
  | name s' => cases hleaf
  | leaf s' =>
    cases hleaf
    unfold UserRequestHandler.fill at hc
    split at hc
    · rename_i key value _ hvalue
      split at hc
      · rw [replaceIn, String.toList_ofList] at hc
        cases SplitJoin.mem_replace hc with
        | inl hc => exact hauth.value value hvalue c hc
        | inr hc => exact h s' hp c hc
      · exact h s' hp c hc
    · exact h s' hp c hc

/-- Plain credentials are safe in a config with plain strings. -/
theorem safe_of_plain (hstrings : PlainStrings config)
    (hauth : ∀ auth ∈ authConf, PlainEntry auth config) : Safe authConf config := by
  induction authConf generalizing config with
  | nil => trivial
  | cons auth authConf ih =>
    have hfirst := hauth auth List.mem_cons_self
    refine ⟨hfirst.safe hstrings, ih (hstrings.fill hfirst) fun auth' hauth' => ?_⟩
    exact (hauth auth' (List.mem_cons_of_mem _ hauth')).mapStrings _

/-! ## The assembled config -/

theorem assembleLaunchConfig_eq {template : Json} {now : Nat}
    {mcpJsonConf : Json} (hconf : property? "mcpJsonConf" template = some mcpJsonConf)
    (hheld : mcpJsonConf.Held) (htruthy : isTruthyProperty (some mcpJsonConf) = true)
    (hne : authConf ≠ []) :
    assembleLaunchConfig template authConf now =
      authConf.foldlM applyAuth mcpJsonConf >>= handleExpiration template now := by
  unfold assembleLaunchConfig
  simp [hconf, parse_stringify hheld, htruthy, hne]

/-- A config is assembled by filling its strings, apart from the expiration that is added, when
    the credentials are safe. -/
theorem credentials_fill_strings (template : Json) (authConf : List AuthConf) (now : Nat)
    {mcpJsonConf result : Json} (hconf : property? "mcpJsonConf" template = some mcpJsonConf)
    (hheld : mcpJsonConf.Held) (hsafe : Safe authConf mcpJsonConf)
    (h : assembleLaunchConfig template authConf now = .ok result) :
    handleExpiration template now (mapStrings (fillAll authConf) mcpJsonConf) = .ok result := by
  unfold assembleLaunchConfig at h
  simp only [hconf, parse_stringify hheld] at h
  split at h
  · split at h
    · cases h
    · cases hfold : authConf.foldlM applyAuth mcpJsonConf with
      | error error => rw [hfold] at h; cases h
      | ok config =>
        rw [hfold] at h
        rw [← foldlM_applyAuth_eq hheld hsafe hfold]
        exact h
  · cases h

/-- A template with one placeholder, in an environment variable. -/
def keyTemplate : Json :=
  .obj [("mcpJsonConf", .obj [("env", .obj [("API_KEY", .str "YOUR_KEY")])])]

def keyConfig : Json := .obj [("env", .obj [("API_KEY", .str "YOUR_KEY")])]

def keyEntry (value : String) : AuthConf where
  key := some (.str "YOUR_KEY")
  value := some (.str value)
  dataType := some (.num (JsNumber.ofNat 1))

theorem environment_held {entries : List (String × Json)}
    (hplain : ∀ m ∈ entries, m.1.toList.any (fun c => !c.isDigit) = true)
    (hnodup : (entries.map Prod.fst).Nodup) (hheld : MembersHeld entries) :
    (Json.obj [("env", .obj entries)]).Held := by
  have henv : "env".toList.any (fun c => !c.isDigit) = true := by decide
  refine ⟨List.nodup_singleton "env", fromEntries_of_plain ?_,
    ⟨hnodup, fromEntries_of_plain ?_, hheld⟩, trivial⟩
  · intro m hm
    obtain rfl := List.mem_singleton.mp hm
    exact arrayIndex?_eq_none henv
  · intro m hm
    exact arrayIndex?_eq_none (hplain m hm)

theorem keyConfig_held : keyConfig.Held :=
  environment_held (by decide) (by decide) ⟨trivial, trivial⟩

/-- The text with a credential is read as the config that it is the text of. -/
theorem applyAuth_of_text {key value : String} (hne : key ≠ "") {config' : Json}
    (hheld : config'.Held)
    (htext : SplitJoin.replace key.toList value.toList (chars config) = chars config') :
    applyAuth config ⟨some (.str key), some (.str value), some (.num (JsNumber.ofNat 1))⟩ =
      .ok config' := by
  have hparse := parse_stringify hheld
  rw [stringify, String.toList_ofList, ← htext] at hparse
  simp [applyAuth, hne, isStringReplacement, stringify, hparse]

theorem assembleLaunchConfig_of_text {template : Json} {key value : String} (hne : key ≠ "")
    {mcpJsonConf config : Json} (hconf : property? "mcpJsonConf" template = some mcpJsonConf)
    (hheld : mcpJsonConf.Held) (htruthy : isTruthyProperty (some mcpJsonConf) = true)
    (hnone : tokenDays template = none) (hheld' : config.Held)
    (htext : SplitJoin.replace key.toList value.toList (chars mcpJsonConf) = chars config) :
    assembleLaunchConfig template
        [⟨some (.str key), some (.str value), some (.num (JsNumber.ofNat 1))⟩] 0 =
      .ok config := by
  rw [assembleLaunchConfig_eq hconf hheld htruthy (List.cons_ne_nil _ _), List.foldlM_cons,
    applyAuth_of_text hne hheld' htext]
  show handleExpiration template 0 config = _
  rw [handleExpiration, hnone]

theorem credentials_fill_strings_key : ∃ result,
    assembleLaunchConfig keyTemplate [keyEntry "secret"] 0 = .ok result ∧
      handleExpiration keyTemplate 0 (mapStrings (fillAll [keyEntry "secret"]) keyConfig) =
        .ok result := by
  have hpieces : ∀ s, .leaf s ∈ pieces keyConfig → s = "YOUR_KEY" := by
    simp [keyConfig, pieces, membersPieces]
  have hnames : ∀ s, .name s ∈ pieces keyConfig → s = "env" ∨ s = "API_KEY" := by
    simp [keyConfig, pieces, membersPieces]
  have hsafe : Safe [keyEntry "secret"] keyConfig := by
    apply safe_of_plain
    · intro s hs
      obtain rfl := hpieces s hs
      exact List.all_eq_true.mp (by decide)
    · intro auth hauth
      obtain rfl := List.mem_singleton.mp hauth
      refine ⟨?_, ?_, ?_, ?_⟩
      · intro key hkey
        obtain rfl := Json.str.inj (Option.some.inj hkey)
        exact List.all_eq_true.mp (by decide)
      · intro value hvalue
        obtain rfl := Json.str.inj (Option.some.inj hvalue)
        exact List.all_eq_true.mp (by decide)
      · intro key hkey
        obtain rfl := Json.str.inj (Option.some.inj hkey)
        simp only [keyConfig, pieces, membersPieces]
        decide
      · intro key hkey s hs
        obtain rfl := Json.str.inj (Option.some.inj hkey)
        obtain rfl | rfl := hnames s hs
        · decide
        · decide
  have hfilled : (Json.obj [("env", .obj [("API_KEY", .str "secret")])]).Held :=
    environment_held (by decide) (by decide) ⟨trivial, trivial⟩
  have hrun := @assembleLaunchConfig_of_text keyTemplate "YOUR_KEY" "secret" (by decide) keyConfig
    _ rfl keyConfig_held rfl rfl hfilled (by decide +kernel)
  exact ⟨_, hrun, credentials_fill_strings keyTemplate _ 0 rfl keyConfig_held hsafe hrun⟩

/-- A value with quotes adds an environment variable. -/
theorem credentials_reshape :
    ¬∀ (template : Json) (authConf : List AuthConf) (now : Nat) (mcpJsonConf result : Json),
      property? "mcpJsonConf" template = some mcpJsonConf → mcpJsonConf.Held →
        assembleLaunchConfig template authConf now = .ok result →
          handleExpiration template now (mapStrings (fillAll authConf) mcpJsonConf) =
            .ok result := by
  intro h
  have hreshaped : (Json.obj
      [("env", .obj [("API_KEY", .str "x"), ("NODE_OPTIONS", .str "y")])]).Held :=
    environment_held (by decide) (by decide) ⟨trivial, trivial, trivial⟩
  have hrun := @assembleLaunchConfig_of_text keyTemplate "YOUR_KEY" "x\",\"NODE_OPTIONS\":\"y"
    (by decide) keyConfig _ rfl keyConfig_held rfl rfl hreshaped (by decide +kernel)
  have hfilled := Except.ok.inj (h _ _ _ keyConfig _ rfl keyConfig_held hrun)
  simp [keyConfig, mapStrings, mapMemberStrings] at hfilled

end UserRequestHandler

end PetaCore
