import PetaCore.Core.CapabilitySystem
import PetaCore.ForStd.Run

/-!
# Views of capabilities, without objects

What a user's view of the servers is, as a function of values: the configuration of the
servers, the lists they announce, the user's permissions and preferences. The view that
`getUserCapabilities` builds from objects refines it, provided that no object is part of two
configurations.

## Key results

- `CapabilityState.getUserCapabilities_spec`: the view that is returned is `viewUser` of the
  values, and building it writes at most to the objects that the user's permissions and
  preferences override
- `CapabilityState.read_getUserCapabilities`: what it leaves in the objects of the contexts
  it reads
-/

namespace PetaCore

open Heap

/-! ## The three kinds of a configuration -/

namespace ServerConfigCapabilities

variable {c : ServerConfigCapabilities Ref}

variable {κ κ' : Type}

theorem ext_get {c c' : ServerConfigCapabilities κ} (h : ∀ kind, c.get kind = c'.get kind) :
    c = c' := by
  obtain ⟨tools, resources, prompts⟩ := c
  obtain ⟨tools', resources', prompts'⟩ := c'
  obtain rfl : tools = tools' := h .tool
  obtain rfl : resources = resources' := h .resource
  obtain rfl : prompts = prompts' := h .prompt
  rfl

@[simp] theorem get_map (f : κ → κ') (c : ServerConfigCapabilities κ) (kind : CapabilityKind) :
    (c.map f).get kind = (c.get kind).map f := by
  cases kind <;> rfl

@[simp] theorem get_dropDisabled (h : Heap CapabilityConfig)
    (c : ServerConfigCapabilities Ref) (kind : CapabilityKind) :
    (c.dropDisabled h).get kind =
      (c.get kind).filter fun r => (h.read r).enabled != some false := by
  cases kind <;> rfl

/-- The object under a name of a kind. -/
def ref? (c : ServerConfigCapabilities Ref) (kind : CapabilityKind) (name : String) :
    Option Ref :=
  (c.get kind).get? name

/-- No object is part of the configuration twice. -/
def Separate (c : ServerConfigCapabilities Ref) : Prop :=
  ∀ kind name kind' name' r, c.ref? kind name = some r → c.ref? kind' name' = some r →
    kind = kind' ∧ name = name'

/-- Every object of the configuration exists. -/
def Holds (h : Heap CapabilityConfig) (c : ServerConfigCapabilities Ref) : Prop :=
  ∀ kind name r, c.ref? kind name = some r → r < h.length

theorem Separate.dict (h : c.Separate) (kind : CapabilityKind) : Heap.Separate (c.get kind) := by
  intro name name' r hr hr'
  exact (h kind name kind name' r hr hr').2

/-- The objects of two configurations with the same values and names. -/
theorem map_congr {f g : Ref → κ} (h : ∀ kind name r, c.ref? kind name = some r → f r = g r) :
    c.map f = c.map g := by
  refine ext_get ?_
  intro kind
  rw [get_map, get_map]
  exact Dict.map_congr fun name r hr => h kind name r hr

theorem ref?_dropDisabled {h : Heap CapabilityConfig} {kind : CapabilityKind} {name : String}
    {r : Ref} (hr : (c.dropDisabled h).ref? kind name = some r) :
    c.ref? kind name = some r ∧ (h.read r).enabled ≠ some false := by
  rw [ref?, get_dropDisabled, Dict.get?_filter] at hr
  obtain ⟨hr, hkeep⟩ := Option.filter_eq_some_iff.mp hr
  exact ⟨hr, by simpa using hkeep⟩

theorem Separate.dropDisabled (hsep : c.Separate) (h : Heap CapabilityConfig) :
    (c.dropDisabled h).Separate := by
  intro kind name kind' name' r hr hr'
  exact hsep kind name kind' name' r (ref?_dropDisabled hr).1 (ref?_dropDisabled hr').1

/-! ### Values -/

/-- The entries that are not switched off. -/
def keepEnabled (c : ServerConfigCapabilities CapabilityConfig) :
    ServerConfigCapabilities CapabilityConfig :=
  let keep := fun (v : CapabilityConfig) => v.enabled != some false
  ⟨c.tools.filter keep, c.resources.filter keep, c.prompts.filter keep⟩

/-- The kinds of overrides: what an entry of permissions or preferences does. -/
abbrev Override :=
  CapabilityKind → CapabilityConfig → Option (CapabilityConfig → CapabilityConfig)

/-- The value of an entry after the override for its name. -/
def overrideValue (f : Override) (o : ServerConfigCapabilities CapabilityConfig)
    (kind : CapabilityKind) (name : String) (v : CapabilityConfig) : CapabilityConfig :=
  (((o.get kind).get? name).bind (f kind)).getD id v

/-- The entries with their overrides. -/
def withOverrides (c : ServerConfigCapabilities CapabilityConfig) (f : Override)
    (o : ServerConfigCapabilities CapabilityConfig) : ServerConfigCapabilities CapabilityConfig :=
  ⟨c.tools.mapKeyed (overrideValue f o .tool), c.resources.mapKeyed (overrideValue f o .resource),
    c.prompts.mapKeyed (overrideValue f o .prompt)⟩

@[simp] theorem get_keepEnabled (c : ServerConfigCapabilities CapabilityConfig)
    (kind : CapabilityKind) :
    c.keepEnabled.get kind = (c.get kind).filter fun v => v.enabled != some false := by
  cases kind <;> rfl

@[simp] theorem get_withOverrides (f : Override)
    (o c : ServerConfigCapabilities CapabilityConfig) (kind : CapabilityKind) :
    (c.withOverrides f o).get kind = (c.get kind).mapKeyed (overrideValue f o kind) := by
  cases kind <;> rfl

theorem map_dropDisabled (h : Heap CapabilityConfig) (c : ServerConfigCapabilities Ref) :
    (c.dropDisabled h).map h.read = (c.map h.read).keepEnabled := by
  refine ext_get ?_
  intro kind
  rw [get_map, get_dropDisabled, get_keepEnabled, get_map, Dict.map_filter]

/-! ### Writes -/

/-- An override is written to this object. -/
def Overridden (f : Override) (o : ServerConfigCapabilities CapabilityConfig)
    (c : ServerConfigCapabilities Ref) (r : Ref) : Prop :=
  ∃ kind name v, c.ref? kind name = some r ∧ (o.get kind).get? name = some v ∧
    (f kind v).isSome

@[simp] theorem length_overrideAll (h : Heap CapabilityConfig)
    (c : ServerConfigCapabilities Ref) (f : Override)
    (o : ServerConfigCapabilities CapabilityConfig) :
    (c.overrideAll h f o).length = h.length := by
  simp [overrideAll]

theorem read_overrideAll_of_not (h : Heap CapabilityConfig) {f : Override}
    {o : ServerConfigCapabilities CapabilityConfig} {r : Ref} (hr : ¬Overridden f o c r) :
    (c.overrideAll h f o).read r = h.read r := by
  have hloop : ∀ (h' : Heap CapabilityConfig) kind,
      (h'.modifyAll (c.get kind) (f kind) (o.get kind).entries).read r = h'.read r := by
    intro h' kind
    refine read_modifyAll_of_ne h' (c.get kind) (f kind) (o.get kind).entries ?_
    intro e he hsome hget
    exact hr ⟨kind, e.1, e.2, hget, ((o.get kind).mem_entries e.1 e.2).mp he, hsome⟩
  show (((h.modifyAll (c.get .tool) (f .tool) (o.get .tool).entries).modifyAll (c.get .resource)
    (f .resource) (o.get .resource).entries).modifyAll (c.get .prompt) (f .prompt)
    (o.get .prompt).entries).read r = h.read r
  rw [hloop, hloop, hloop]

/-- Each object gets the override for its kind and name. -/
theorem read_overrideAll (h : Heap CapabilityConfig) (f : Override)
    (o : ServerConfigCapabilities CapabilityConfig) (hsep : c.Separate) (hholds : c.Holds h)
    {kind : CapabilityKind} {name : String} {r : Ref} (hr : c.ref? kind name = some r) :
    (c.overrideAll h f o).read r = overrideValue f o kind name (h.read r) := by
  have hlt := hholds kind name r hr
  -- the loops over the other kinds do not touch the object
  have hother : ∀ (h' : Heap CapabilityConfig) kind', kind' ≠ kind →
      (h'.modifyAll (c.get kind') (f kind') (o.get kind').entries).read r = h'.read r := by
    intro h' kind' hne
    refine read_modifyAll_of_ne h' (c.get kind') (f kind') (o.get kind').entries ?_
    intro e _ _ hget
    exact hne (hsep kind' e.1 kind name r hget hr).1
  have hown : ∀ h' : Heap CapabilityConfig, h'.length = h.length →
      (h'.modifyAll (c.get kind) (f kind) (o.get kind).entries).read r =
        overrideValue f o kind name (h'.read r) := by
    intro h' hlen
    refine read_modifyAll h' (c.get kind) (f kind) (o.get kind) (hsep.dict kind) hr ?_
    rw [hlen]
    exact hlt
  show (((h.modifyAll (c.get .tool) (f .tool) (o.get .tool).entries).modifyAll (c.get .resource)
    (f .resource) (o.get .resource).entries).modifyAll (c.get .prompt) (f .prompt)
    (o.get .prompt).entries).read r = _
  cases kind with
  | tool => rw [hother _ .prompt (by decide), hother _ .resource (by decide), hown _ rfl]
  | resource =>
    rw [hother _ .prompt (by decide), hown _ (length_modifyAll _ _ _ _),
      hother _ .tool (by decide)]
  | prompt =>
    rw [hown _ (by simp), hother _ .resource (by decide), hother _ .tool (by decide)]

theorem map_overrideAll (h : Heap CapabilityConfig) (f : Override)
    (o : ServerConfigCapabilities CapabilityConfig) (hsep : c.Separate) (hholds : c.Holds h) :
    c.map (c.overrideAll h f o).read = (c.map h.read).withOverrides f o := by
  refine ext_get ?_
  intro kind
  rw [get_map, get_withOverrides, get_map, Dict.mapKeyed_map]
  exact Dict.mapKeyed_congr fun name r hr => read_overrideAll h f o hsep hholds hr

/-! ### Construction -/

/-- `Heap.Made` for the three kinds of a configuration. -/
structure Built (h : Heap CapabilityConfig) (own : CapabilityKind → String → Ref → Prop)
    (v : ServerConfigCapabilities CapabilityConfig) (h' : Heap CapabilityConfig)
    (c : ServerConfigCapabilities Ref) : Prop where
  grows : h.length ≤ h'.length
  frame : ∀ r, r < h.length → h'.read r = h.read r
  separate : c.Separate
  origin : ∀ kind name r, c.ref? kind name = some r →
    (own kind name r ∧ r < h.length) ∨ (h.length ≤ r ∧ r < h'.length)
  gives : ∀ kind name r, own kind name r → c.ref? kind name = some r
  values : c.map h'.read = v

/-- Where the configuration built last reads, objects made before are still the same. -/
private theorem made_map {h h' : Heap CapabilityConfig} {d : Dict Ref}
    (hd : ∀ name r, d.get? name = some r → r < h.length)
    (hframe : ∀ r, r < h.length → h'.read r = h.read r) : d.map h'.read = d.map h.read :=
  Dict.map_congr fun name r hr => hframe r (hd name r hr)

private theorem Made.lt {h h' : Heap CapabilityConfig} {own : String → Ref → Prop}
    {v : Dict CapabilityConfig} {d : Dict Ref} (hm : Made h own v h' d) (name : String)
    (r : Ref) (hr : d.get? name = some r) : r < h'.length := by
  rcases hm.origin name r hr with ⟨_, hlt⟩ | ⟨_, hlt⟩
  · exact Nat.lt_of_lt_of_le hlt hm.grows
  · exact hlt

/-- A bound for the objects of each kind. -/
def kindBound (tool resource prompt : Nat) : CapabilityKind → Nat
  | .tool => tool
  | .resource => resource
  | .prompt => prompt

/-- The kinds are built one after the other; old objects of different kinds differ. -/
theorem Built.of_made {h h₁ h₂ h₃ : Heap CapabilityConfig}
    {own : CapabilityKind → String → Ref → Prop} {v : ServerConfigCapabilities CapabilityConfig}
    (hown : ∀ kind name kind' name' r, own kind name r → own kind' name' r → kind = kind')
    (hold : ∀ kind name r, own kind name r → r < h.length)
    (htool : Made h (own .tool) (v.get .tool) h₁ (c.get .tool))
    (hresource : Made h₁ (own .resource) (v.get .resource) h₂ (c.get .resource))
    (hprompt : Made h₂ (own .prompt) (v.get .prompt) h₃ (c.get .prompt)) : Built h own v h₃ c := by
  have hle₁ := htool.grows
  have hle₂ := hresource.grows
  have hle₃ := hprompt.grows
  -- each object is an old one or lies in the part of the heap that its kind has added
  let lo := kindBound h.length h₁.length h₂.length
  let hi := kindBound h₁.length h₂.length h₃.length
  have horigin : ∀ kind name (r : Nat), c.ref? kind name = some r →
      (own kind name r ∧ r < h.length) ∨ (lo kind ≤ r ∧ r < hi kind) := by
    intro kind name r hr
    cases kind with
    | tool => exact htool.origin name r hr
    | resource =>
      rcases hresource.origin name r hr with ⟨ho, _⟩ | hnew
      · exact .inl ⟨ho, hold .resource name r ho⟩
      · exact .inr hnew
    | prompt =>
      rcases hprompt.origin name r hr with ⟨ho, _⟩ | hnew
      · exact .inl ⟨ho, hold .prompt name r ho⟩
      · exact .inr hnew
  have hlo : ∀ kind, h.length ≤ lo kind ∧ hi kind ≤ h₃.length := by
    intro kind
    cases kind <;> simp only [lo, hi, kindBound] <;> omega
  have hdisjoint : ∀ kind kind' (r : Nat), lo kind ≤ r → r < hi kind → lo kind' ≤ r →
      r < hi kind' → kind = kind' := by
    intro kind kind' r hl hh hl' hh'
    cases kind <;> cases kind' <;> first | rfl | (simp only [lo, hi, kindBound] at *; omega)
  have hframe₂ : ∀ r, r < h₁.length → h₃.read r = h₁.read r := by
    intro r hr
    rw [hprompt.frame r (Nat.lt_of_lt_of_le hr hle₂), hresource.frame r hr]
  refine ⟨by omega, ?_, ?_, ?_, ?_, ?_⟩
  · intro r hr
    rw [hframe₂ r (Nat.lt_of_lt_of_le hr hle₁), htool.frame r hr]
  · intro kind name kind' name' r hr hr'
    have hkind : kind = kind' := by
      have hge := (hlo kind).1
      have hge' := (hlo kind').1
      rcases horigin kind name r hr with ⟨ho, hlt⟩ | ⟨hl, hh⟩
      · rcases horigin kind' name' r hr' with ⟨ho', _⟩ | ⟨hl', _⟩
        · exact hown kind name kind' name' r ho ho'
        · exact absurd (Nat.lt_of_lt_of_le hlt (Nat.le_trans hge' hl')) (Nat.lt_irrefl r)
      · rcases horigin kind' name' r hr' with ⟨_, hlt'⟩ | ⟨hl', hh'⟩
        · exact absurd (Nat.lt_of_lt_of_le hlt' (Nat.le_trans hge hl)) (Nat.lt_irrefl r)
        · exact hdisjoint kind kind' r hl hh hl' hh'
    subst hkind
    refine ⟨rfl, ?_⟩
    cases kind with
    | tool => exact htool.separate name name' r hr hr'
    | resource => exact hresource.separate name name' r hr hr'
    | prompt => exact hprompt.separate name name' r hr hr'
  · intro kind name r hr
    rcases horigin kind name r hr with ho | ⟨hl, hh⟩
    · exact .inl ho
    · exact .inr ⟨Nat.le_trans (hlo kind).1 hl, Nat.lt_of_lt_of_le hh (hlo kind).2⟩
  · intro kind name r ho
    cases kind with
    | tool => exact htool.gives name r ho
    | resource => exact hresource.gives name r ho
    | prompt => exact hprompt.gives name r ho
  · refine ext_get ?_
    intro kind
    rw [get_map]
    cases kind with
    | tool => rw [made_map (Made.lt htool) hframe₂, htool.values]
    | resource => rw [made_map (Made.lt hresource) hprompt.frame, hresource.values]
    | prompt => exact hprompt.values

theorem parse_built (h : Heap CapabilityConfig)
    (v : ServerConfigCapabilities CapabilityConfig) :
    Built h (fun _ _ _ => False) v (v.parse h).1 (v.parse h).2 := by
  have hmade : ∀ (h' : Heap CapabilityConfig) kind,
      Made h' (fun _ _ => False) (v.get kind) (h'.assignNew .empty (v.get kind).entries).1
        (h'.assignNew .empty (v.get kind).entries).2 := by
    intro h' kind
    have hnew := made_assignNew h' (v.get kind).entries
    rw [Dict.ofList_entries] at hnew
    exact hnew
  exact Built.of_made (fun _ _ _ _ _ ho => by cases ho) (fun _ _ _ ho => by cases ho)
    (hmade h .tool) (hmade _ .resource) (hmade _ .prompt)

end ServerConfigCapabilities

/-! ## What a server context announces -/

namespace ServerContext

/-- One kind of what a context announces. -/
def announcedKind (c : ServerContext CapabilityConfig) (kind : CapabilityKind) :
    Dict CapabilityConfig :=
  if c.lists.isLoaded kind then
    Dict.ofList (loadedEntries c.capabilitiesConfig c.lists kind)
  else c.capabilitiesConfig.get kind

/-- `getMcpCapabilities` by value. -/
def announced (c : ServerContext CapabilityConfig) : ServerConfigCapabilities CapabilityConfig :=
  ⟨c.announcedKind .tool, c.announcedKind .resource, c.announcedKind .prompt⟩

/-- The objects of its configuration that a context gives out. -/
def GivesOut (c : ServerContext Ref) (kind : CapabilityKind) (name : String) (r : Ref) : Prop :=
  c.lists.isLoaded kind = false ∧ c.capabilitiesConfig.ref? kind name = some r

theorem kindCapabilities_made {h h' : Heap CapabilityConfig} {c : ServerContext Ref}
    (hsep : c.capabilitiesConfig.Separate) (hholds : c.capabilitiesConfig.Holds h)
    (hle : h.length ≤ h'.length) (hframe : ∀ r, r < h.length → h'.read r = h.read r)
    (kind : CapabilityKind) :
    Made h' (c.GivesOut kind) ((c.map h.read).announcedKind kind)
      (c.kindCapabilities h' kind).1 (c.kindCapabilities h' kind).2 := by
  have hconfig : c.capabilitiesConfig.map h'.read = c.capabilitiesConfig.map h.read := by
    refine ServerConfigCapabilities.map_congr ?_
    intro kind name r hr
    exact hframe r (hholds kind name r hr)
  have hann : (c.map h.read).announcedKind kind =
      if c.lists.isLoaded kind then
        Dict.ofList (loadedEntries (c.capabilitiesConfig.map h.read) c.lists kind)
      else (c.capabilitiesConfig.map h.read).get kind := rfl
  rw [hann, kindCapabilities]
  by_cases hload : c.lists.isLoaded kind = true
  · rw [if_pos hload, if_pos hload, hconfig]
    have hnew := made_assignNew h' (loadedEntries (c.capabilitiesConfig.map h.read) c.lists kind)
    refine ⟨hnew.grows, hnew.frame, hnew.separate, ?_, ?_, hnew.values⟩
    · intro name r hr
      rcases hnew.origin name r hr with ⟨ho, _⟩ | hr
      · cases ho
      · exact .inr hr
    · rintro name r ⟨hnot, _⟩
      rw [hload] at hnot
      cases hnot
  · rw [if_neg hload, if_neg hload, ← hconfig, ServerConfigCapabilities.get_map]
    have hd : h'.Holds (c.capabilitiesConfig.get kind) := by
      intro name r hr
      exact Nat.lt_of_lt_of_le (hholds kind name r hr) hle
    have hself := made_self hd (hsep.dict kind)
    refine ⟨hself.grows, hself.frame, hself.separate, ?_, fun _ _ ho => ho.2, hself.values⟩
    intro name r hr
    exact .inl ⟨⟨by simpa using hload, hr⟩, Nat.lt_of_lt_of_le (hholds kind name r hr) hle⟩

theorem getMcpCapabilities_built {h : Heap CapabilityConfig} {c : ServerContext Ref}
    (hsep : c.capabilitiesConfig.Separate) (hholds : c.capabilitiesConfig.Holds h) :
    ServerConfigCapabilities.Built h c.GivesOut (c.map h.read).announced
      (c.getMcpCapabilities h).1 (c.getMcpCapabilities h).2.toServerConfigCapabilities := by
  have htool := kindCapabilities_made hsep hholds (Nat.le_refl _) (fun _ _ => rfl) .tool
  have hresource := kindCapabilities_made hsep hholds htool.grows htool.frame .resource
  have hprompt := kindCapabilities_made hsep hholds
    (Nat.le_trans htool.grows hresource.grows)
    (fun r hr => (hresource.frame r (Nat.lt_of_lt_of_le hr htool.grows)).trans (htool.frame r hr))
    .prompt
  refine ServerConfigCapabilities.Built.of_made ?_ ?_ htool hresource hprompt
  · intro kind name kind' name' r ho ho'
    exact (hsep kind name kind' name' r ho.2 ho'.2).1
  · intro kind name r ho
    exact hholds kind name r ho.2

end ServerContext

/-! ## One server of a view -/

namespace CapabilityState

/-- What a server announces through its context, or else what its row says. -/
def announcedBy (server : Server) (context : Option (ServerContext CapabilityConfig)) :
    ServerConfigCapabilities CapabilityConfig :=
  match context with
  | some c => c.announced
  | none => server.capabilities

/-- One server of the view before the preferences: what the server announces less what is
    switched off, with the permissions written over it. -/
def viewServer (user : User) (server : Server)
    (context : Option (ServerContext CapabilityConfig)) :
    ServerConfigWithEnabled CapabilityConfig :=
  let caps := (announcedBy server context).keepEnabled
  { toServerConfigCapabilities :=
      match user.permissions.get? server.serverId with
      | none => caps
      | some perms => caps.withOverrides permissionOverride perms.toServerConfigCapabilities
    enabled := some (serverEnabled user server)
    serverName := server.serverName
    allowUserInput := server.allowUserInput
    authType := server.authType
    category := some server.category
    configTemplate :=
      if server.allowUserInput then server.configTemplate.getD "\x7b\x7d" else "\x7b\x7d"
    configured :=
      if server.allowUserInput then (user.launchConfigs.get? server.serverId).isSome else true
    status :=
      match context with
      | some c => some c.status
      | none => some .offline }

/-- The objects of configurations that are given out for a server. -/
def GivesOut (m : ServerManager Ref) (userId : String) (server : Server)
    (kind : CapabilityKind) (name : String) (r : Ref) : Prop :=
  ∃ c, viewContext m userId server = some c ∧ c.GivesOut kind name r

/-- The permissions of the user write to this object. -/
def PermissionWrites (h : Heap CapabilityConfig) (m : ServerManager Ref) (userId : String)
    (user : User) (server : Server) (r : Ref) : Prop :=
  ∃ kind name perms o, GivesOut m userId server kind name r ∧
    (h.read r).enabled ≠ some false ∧ user.permissions.get? server.serverId = some perms ∧
    (perms.get kind).get? name = some o ∧ o.enabled.isSome

section

variable {h : Heap CapabilityConfig} {m : ServerManager Ref} {userId : String} {user : User}
  {server : Server}

theorem mcpCapabilities_built
    (hc : ∀ c, viewContext m userId server = some c →
      c.capabilitiesConfig.Separate ∧ c.capabilitiesConfig.Holds h) :
    ServerConfigCapabilities.Built h (GivesOut m userId server)
      (announcedBy server ((viewContext m userId server).map (·.map h.read)))
      (mcpCapabilities h m userId server).1 (mcpCapabilities h m userId server).2.1 := by
  simp only [mcpCapabilities]
  cases hcontext : viewContext m userId server with
  | none =>
    have hbuilt := server.capabilities.parse_built h
    refine ⟨hbuilt.grows, hbuilt.frame, hbuilt.separate, ?_, ?_, hbuilt.values⟩
    · intro kind name r hr
      rcases hbuilt.origin kind name r hr with ⟨ho, _⟩ | hnew
      · cases ho
      · exact .inr hnew
    · rintro kind name r ⟨c, hc, _⟩
      cases hcontext.symm.trans hc
  | some c =>
    obtain ⟨hsep, hholds⟩ := hc c hcontext
    have hbuilt := ServerContext.getMcpCapabilities_built hsep hholds
    refine ⟨hbuilt.grows, hbuilt.frame, hbuilt.separate, ?_, ?_, hbuilt.values⟩
    · intro kind name r hr
      rcases hbuilt.origin kind name r hr with ⟨ho, hlt⟩ | hnew
      · exact .inl ⟨⟨c, hcontext, ho⟩, hlt⟩
      · exact .inr hnew
    · rintro kind name r ⟨c', hc', hout⟩
      obtain rfl := Option.some.inj (hcontext.symm.trans hc')
      exact hbuilt.gives kind name r hout

theorem mcpCapabilities_status :
    (mcpCapabilities h m userId server).2.2 =
      match viewContext m userId server with
      | some c => c.status
      | none => .offline := by
  simp only [mcpCapabilities]
  cases viewContext m userId server with
  | none => rfl
  | some c => rfl

/-- One round of the loop: what it makes and which objects it writes. -/
structure EntryBuilt (h : Heap CapabilityConfig) (m : ServerManager Ref) (userId : String)
    (user : User) (server : Server) (h' : Heap CapabilityConfig)
    (e : ServerConfigWithEnabled Ref) : Prop where
  grows : h.length ≤ h'.length
  frame : ∀ r, r < h.length → ¬PermissionWrites h m userId user server r →
    h'.read r = h.read r
  separate : e.Separate
  origin : ∀ kind name r, e.ref? kind name = some r →
    (GivesOut m userId server kind name r ∧ r < h.length) ∨ (h.length ≤ r ∧ r < h'.length)
  gives : ∀ kind name r, GivesOut m userId server kind name r →
    (h.read r).enabled ≠ some false → e.ref? kind name = some r
  values : e.map h'.read =
    viewServer user server ((viewContext m userId server).map (·.map h.read))

theorem serverCapabilities_built
    (hc : ∀ c, viewContext m userId server = some c →
      c.capabilitiesConfig.Separate ∧ c.capabilitiesConfig.Holds h) :
    EntryBuilt h m userId user server (serverCapabilities h m userId user server).1
      (serverCapabilities h m userId user server).2 := by
  have hbuilt := mcpCapabilities_built hc
  have hstatus := @mcpCapabilities_status h m userId server
  rw [serverCapabilities]
  generalize mcpCapabilities h m userId server = res at hbuilt hstatus ⊢
  obtain ⟨h₁, mcp, status⟩ := res
  simp only at hbuilt hstatus ⊢
  subst hstatus
  have hsep := hbuilt.separate.dropDisabled h₁
  have horigin : ∀ kind name r, (mcp.dropDisabled h₁).ref? kind name = some r →
      (GivesOut m userId server kind name r ∧ r < h.length) ∨
        (h.length ≤ r ∧ r < h₁.length) := by
    intro kind name r hr
    exact hbuilt.origin kind name r (ServerConfigCapabilities.ref?_dropDisabled hr).1
  have hholds : (mcp.dropDisabled h₁).Holds h₁ := by
    intro kind name r hr
    rcases horigin kind name r hr with ⟨_, hlt⟩ | ⟨_, hlt⟩
    · exact Nat.lt_of_lt_of_le hlt hbuilt.grows
    · exact hlt
  have hgives : ∀ kind name r, GivesOut m userId server kind name r →
      (h.read r).enabled ≠ some false → (mcp.dropDisabled h₁).ref? kind name = some r := by
    intro kind name r hout hread
    have hlt : r < h.length := by
      obtain ⟨c, hcontext, hout⟩ := hout
      exact (hc c hcontext).2 kind name r hout.2
    have href : (mcp.get kind).get? name = some r := hbuilt.gives kind name r hout
    rw [ServerConfigCapabilities.ref?, ServerConfigCapabilities.get_dropDisabled,
      Dict.get?_filter, href, Option.filter_some_pos]
    rw [hbuilt.frame r hlt]
    simpa using hread
  have hvalues : (mcp.dropDisabled h₁).map h₁.read =
      (announcedBy server ((viewContext m userId server).map (·.map h.read))).keepEnabled := by
    rw [ServerConfigCapabilities.map_dropDisabled, hbuilt.values]
  cases hperms : user.permissions.get? server.serverId with
  | none =>
    refine ⟨hbuilt.grows, fun r hr _ => hbuilt.frame r hr, hsep, horigin, hgives, ?_⟩
    simp only [ServerConfigWithEnabled.map, viewServer, hperms, hvalues]
    cases viewContext m userId server <;> rfl
  | some perms =>
    refine ⟨?_, ?_, hsep, ?_, hgives, ?_⟩
    · rw [ServerConfigCapabilities.length_overrideAll]
      exact hbuilt.grows
    · -- an old object that is written was given out, and its permission says so
      intro r hr hnot
      rw [← hbuilt.frame r hr]
      refine ServerConfigCapabilities.read_overrideAll_of_not h₁ ?_
      rintro ⟨kind, name, o, href, ho, hsome⟩
      refine hnot ⟨kind, name, perms, o, ?_, ?_, hperms, ho, ?_⟩
      · rcases horigin kind name r href with ⟨hout, _⟩ | ⟨hge, _⟩
        · exact hout
        · exact absurd (Nat.lt_of_lt_of_le hr hge) (Nat.lt_irrefl r)
      · rw [← hbuilt.frame r hr]
        exact (ServerConfigCapabilities.ref?_dropDisabled href).2
      · simp only [permissionOverride] at hsome
        split at hsome
        · assumption
        · cases hsome
    · rw [ServerConfigCapabilities.length_overrideAll]
      exact horigin
    · simp only [ServerConfigWithEnabled.map, viewServer, hperms,
        ServerConfigCapabilities.map_overrideAll h₁ permissionOverride
          perms.toServerConfigCapabilities hsep hholds, hvalues]
      cases viewContext m userId server <;> rfl

end

/-! ## All servers -/

/-- A managed context, by server id, or a temporary one, by its key. -/
def contextAt {κ : Type} (m : ServerManager κ) : Bool × String → Option (ServerContext κ)
  | (true, serverId) => m.serverContexts.get? serverId
  | (false, key) => m.temporaryServers.get? key

/-- Where a user's view of a server is taken from. -/
def viewLocation (userId : String) (server : Server) : Bool × String :=
  if server.allowUserInput then (false, internalKey server.serverId userId)
  else (true, server.serverId)

theorem viewContext_eq {κ : Type} (m : ServerManager κ) (userId : String) (server : Server) :
    viewContext m userId server = contextAt m (viewLocation userId server) := by
  simp only [viewContext, viewLocation]
  split
  · rfl
  · simp only [ServerManager.getServerContext, contextAt]
    cases m.serverContexts.get? server.serverId <;> rfl

theorem contextAt_map {κ κ' : Type} (f : κ → κ') (m : ServerManager κ) (l : Bool × String) :
    contextAt (m.map f) l = (contextAt m l).map (·.map f) := by
  obtain ⟨_ | _, key⟩ := l
  all_goals exact Dict.get?_map _ _ _

variable {userId : String}

theorem internalKey_inj {serverId serverId' : String}
    (h : internalKey serverId userId = internalKey serverId' userId) : serverId = serverId' := by
  have hlist := congrArg String.toList h
  simp only [internalKey, String.toList_append, List.append_assoc] at hlist
  exact String.toList_inj.mp (List.append_cancel_right hlist)

theorem viewLocation_inj {server server' : Server}
    (h : viewLocation userId server = viewLocation userId server') :
    server.serverId = server'.serverId := by
  simp only [viewLocation] at h
  split at h <;> split at h
  · exact internalKey_inj (Prod.mk.inj h).2
  · cases (Prod.mk.inj h).1
  · cases (Prod.mk.inj h).1
  · exact (Prod.mk.inj h).2

/-- The objects of the configurations exist, and none is part of two of them. -/
structure ConfigsOk (h : Heap CapabilityConfig) (m : ServerManager Ref) : Prop where
  holds : ∀ l c, contextAt m l = some c → c.capabilitiesConfig.Holds h
  separate : ∀ l c l' c' kind name kind' name' r, contextAt m l = some c →
    contextAt m l' = some c' → c.capabilitiesConfig.ref? kind name = some r →
    c'.capabilitiesConfig.ref? kind' name' = some r → l = l' ∧ kind = kind' ∧ name = name'

section

variable {h : Heap CapabilityConfig} {m : ServerManager Ref} {userId : String} {user : User}
  {server server' : Server}

theorem ConfigsOk.separate_config (hok : ConfigsOk h m) {l : Bool × String}
    {c : ServerContext Ref} (hc : contextAt m l = some c) : c.capabilitiesConfig.Separate := by
  intro kind name kind' name' r hr hr'
  exact (hok.separate l c l c kind name kind' name' r hc hc hr hr').2

theorem GivesOut.lt (hok : ConfigsOk h m) {kind : CapabilityKind} {name : String} {r : Ref}
    (hr : GivesOut m userId server kind name r) : r < h.length := by
  obtain ⟨c, hc, hout⟩ := hr
  rw [viewContext_eq] at hc
  exact hok.holds _ c hc kind name r hout.2

/-- An object is given out for one server only. -/
theorem GivesOut.serverId (hok : ConfigsOk h m) {kind kind' : CapabilityKind}
    {name name' : String} {r : Ref} (hr : GivesOut m userId server kind name r)
    (hr' : GivesOut m userId server' kind' name' r) : server.serverId = server'.serverId := by
  obtain ⟨c, hc, hout⟩ := hr
  obtain ⟨c', hc', hout'⟩ := hr'
  rw [viewContext_eq] at hc hc'
  exact viewLocation_inj
    (hok.separate _ c _ c' kind name kind' name' r hc hc' hout.2 hout'.2).1

end

/-- No object is part of a collection of views twice. -/
def Apart (capabilities : Dict (ServerConfigWithEnabled Ref)) : Prop :=
  ∀ serverId e serverId' e' kind name kind' name' r, capabilities.get? serverId = some e →
    capabilities.get? serverId' = some e' → e.ref? kind name = some r →
    e'.ref? kind' name' = some r → serverId = serverId' ∧ kind = kind' ∧ name = name'

/-- The loop over the servers after it has treated those of `done`. -/
structure CollectOk (h₀ : Heap CapabilityConfig) (m : ServerManager Ref) (userId : String)
    (user : User) (done : List Server) (h : Heap CapabilityConfig)
    (capabilities : Dict (ServerConfigWithEnabled Ref)) : Prop where
  grows : h₀.length ≤ h.length
  frame : ∀ r, r < h₀.length →
    (∀ server ∈ done, ¬PermissionWrites h₀ m userId user server r) → h.read r = h₀.read r
  apart : Apart capabilities
  origin : ∀ serverId e kind name r, capabilities.get? serverId = some e →
    e.ref? kind name = some r →
    (∃ server ∈ done, server.serverId = serverId ∧ GivesOut m userId server kind name r) ∨
      (h₀.length ≤ r ∧ r < h.length)
  gives : ∀ server ∈ done, ∀ kind name r, GivesOut m userId server kind name r →
    (h₀.read r).enabled ≠ some false →
    ∃ e, capabilities.get? server.serverId = some e ∧ e.ref? kind name = some r
  values : capabilities.map (·.map h.read) = Dict.ofList (done.map fun server =>
    (server.serverId,
      viewServer user server ((viewContext m userId server).map (·.map h₀.read))))

section

variable {h₀ h : Heap CapabilityConfig} {m : ServerManager Ref} {userId : String} {user : User}
  {done : List Server} {capabilities : Dict (ServerConfigWithEnabled Ref)} {server : Server}

/-- The rounds before have not written to what is given out for another server. -/
theorem CollectOk.read_givesOut (hcol : CollectOk h₀ m userId user done h capabilities)
    (hok : ConfigsOk h₀ m) (hnew : ∀ s ∈ done, s.serverId ≠ server.serverId)
    {c : ServerContext Ref} (hc : viewContext m userId server = some c) {kind : CapabilityKind}
    {name : String} {r : Ref} (hr : c.capabilitiesConfig.ref? kind name = some r) :
    h.read r = h₀.read r := by
  rw [viewContext_eq] at hc
  refine hcol.frame r (hok.holds _ c hc kind name r hr) ?_
  rintro s hs ⟨kind', name', _, _, ⟨c', hc', hout'⟩, _⟩
  rw [viewContext_eq] at hc'
  have hloc := (hok.separate _ c' _ c kind' name' kind name r hc' hc hout'.2 hr).1
  exact hnew s hs (viewLocation_inj hloc)

theorem CollectOk.step (hcol : CollectOk h₀ m userId user done h capabilities)
    (hok : ConfigsOk h₀ m) (hnew : ∀ s ∈ done, s.serverId ≠ server.serverId) :
    CollectOk h₀ m userId user (done ++ [server]) (serverCapabilities h m userId user server).1
      (capabilities.set server.serverId (serverCapabilities h m userId user server).2) := by
  have hentry : EntryBuilt h m userId user server (serverCapabilities h m userId user server).1
      (serverCapabilities h m userId user server).2 := by
    refine serverCapabilities_built ?_
    intro c hc
    rw [viewContext_eq] at hc
    refine ⟨hok.separate_config hc, ?_⟩
    intro kind name r hr
    exact Nat.lt_of_lt_of_le (hok.holds _ c hc kind name r hr) hcol.grows
  generalize (serverCapabilities h m userId user server).1 = h' at hentry ⊢
  generalize (serverCapabilities h m userId user server).2 = e at hentry ⊢
  -- the permissions write to nothing that the rounds before have given out
  have hwrites : ∀ r, PermissionWrites h m userId user server r →
      PermissionWrites h₀ m userId user server r := by
    rintro r ⟨kind, name, perms, o, ⟨c, hc, hout⟩, henabled, hperms⟩
    rw [hcol.read_givesOut hok hnew hc hout.2] at henabled
    exact ⟨kind, name, perms, o, ⟨c, hc, hout⟩, henabled, hperms⟩
  have hold : ∀ serverId e' kind name r, capabilities.get? serverId = some e' →
      e'.ref? kind name = some r → r < h.length ∧ ∀ kind' name',
        ¬GivesOut m userId server kind' name' r := by
    intro serverId e' kind name r he' hr
    rcases hcol.origin serverId e' kind name r he' hr with ⟨s, hs, _, hout⟩ | ⟨hge, hlt⟩
    · refine ⟨Nat.lt_of_lt_of_le (hout.lt hok) hcol.grows, ?_⟩
      intro kind' name' hout'
      exact hnew s hs (hout.serverId hok hout')
    · refine ⟨hlt, ?_⟩
      intro kind' name' hout'
      exact absurd (Nat.lt_of_lt_of_le (hout'.lt hok) hge) (Nat.lt_irrefl r)
  -- so no object of the new entry is part of an older one
  have hcross : ∀ serverId e' kind name kind' name' r, capabilities.get? serverId = some e' →
      e'.ref? kind name = some r → e.ref? kind' name' ≠ some r := by
    intro serverId e' kind name kind' name' r he' hr hr'
    obtain ⟨hlt, hnot⟩ := hold serverId e' kind name r he' hr
    rcases hentry.origin kind' name' r hr' with ⟨hout, _⟩ | ⟨hge, _⟩
    · exact hnot kind' name' hout
    · exact absurd (Nat.lt_of_lt_of_le hlt hge) (Nat.lt_irrefl r)
  refine ⟨Nat.le_trans hcol.grows hentry.grows, ?_, ?_, ?_, ?_, ?_⟩
  · intro r hr hnot
    have hlast : ¬PermissionWrites h m userId user server r := by
      intro hw
      exact hnot server (by simp) (hwrites r hw)
    rw [hentry.frame r (Nat.lt_of_lt_of_le hr hcol.grows) hlast]
    exact hcol.frame r hr fun s hs => hnot s (List.mem_append_left _ hs)
  · intro sid e₁ sid' e₂ kind name kind' name' r he₁ he₂ hr hr'
    rw [Dict.get?_set] at he₁ he₂
    split at he₁
    · rename_i hsid
      cases he₁
      split at he₂
      · rename_i hsid'
        cases he₂
        exact ⟨hsid.trans hsid'.symm, hentry.separate kind name kind' name' r hr hr'⟩
      · exact absurd hr (hcross sid' e₂ kind' name' kind name r he₂ hr')
    · split at he₂
      · cases he₂
        exact absurd hr' (hcross sid e₁ kind name kind' name' r he₁ hr)
      · exact hcol.apart sid e₁ sid' e₂ kind name kind' name' r he₁ he₂ hr hr'
  · intro sid e₁ kind name r he₁ hr
    rw [Dict.get?_set] at he₁
    split at he₁
    · rename_i hsid
      cases he₁
      rcases hentry.origin kind name r hr with ⟨hout, _⟩ | ⟨hge, hlt⟩
      · exact .inl ⟨server, by simp, hsid.symm, hout⟩
      · exact .inr ⟨Nat.le_trans hcol.grows hge, hlt⟩
    · rcases hcol.origin sid e₁ kind name r he₁ hr with ⟨s, hs, hid, hout⟩ | ⟨hge, hlt⟩
      · exact .inl ⟨s, List.mem_append_left _ hs, hid, hout⟩
      · exact .inr ⟨hge, Nat.lt_of_lt_of_le hlt hentry.grows⟩
  · intro s hs kind name r hout hread
    rcases List.mem_append.mp hs with hdone | hlast
    · obtain ⟨e', he', hr⟩ := hcol.gives s hdone kind name r hout hread
      exact ⟨e', by rw [Dict.get?_set_ne _ _ (hnew s hdone)]; exact he', hr⟩
    · obtain rfl : s = server := by simpa using hlast
      refine ⟨e, Dict.get?_set_self _ _ _, hentry.gives kind name r hout ?_⟩
      obtain ⟨c, hc, hout'⟩ := hout
      rw [hcol.read_givesOut hok hnew hc hout'.2]
      exact hread
  · have hsame : capabilities.map (·.map h'.read) = capabilities.map (·.map h.read) := by
      refine Dict.map_congr ?_
      intro sid e₁ he₁
      simp only [ServerConfigWithEnabled.map]
      congr 1
      refine ServerConfigCapabilities.map_congr ?_
      intro kind name r hr
      obtain ⟨hlt, hnot⟩ := hold sid e₁ kind name r he₁ hr
      refine hentry.frame r hlt ?_
      rintro ⟨kind', name', _, _, hout, _⟩
      exact hnot kind' name' hout
    have hcontext : (viewContext m userId server).map (·.map h.read) =
        (viewContext m userId server).map (·.map h₀.read) := by
      cases hc : viewContext m userId server with
      | none => rfl
      | some c =>
        simp only [Option.map_some, ServerContext.map]
        congr 2
        exact ServerConfigCapabilities.map_congr fun kind name r hr =>
          hcol.read_givesOut hok hnew hc hr
    rw [Dict.map_set, hsame, hcol.values, hentry.values, hcontext]
    simp only [Dict.ofList, Dict.setAll, List.map_append, List.foldl_append, List.map_cons,
      List.map_nil, List.foldl_cons, List.foldl_nil]

/-- The loop over the servers. -/
theorem CollectOk.collect (hcol : CollectOk h₀ m userId user done h capabilities)
    (hok : ConfigsOk h₀ m) (servers : List Server)
    (hnew : ∀ s ∈ done, ∀ s' ∈ servers, s.serverId ≠ s'.serverId)
    (hnodup : (servers.map (·.serverId)).Nodup) :
    CollectOk h₀ m userId user (done ++ servers)
      (collect m userId user h capabilities servers).1
      (collect m userId user h capabilities servers).2 := by
  induction servers generalizing done h capabilities with
  | nil =>
    rw [List.append_nil]
    exact hcol
  | cons server servers ih =>
    rw [List.map_cons] at hnodup
    obtain ⟨hnot, hrest⟩ := List.nodup_cons.mp hnodup
    have hstep := hcol.step hok fun s hs => hnew s hs server List.mem_cons_self
    rw [show done ++ server :: servers = (done ++ [server]) ++ servers by simp]
    refine ih hstep ?_ hrest
    intro s hs s' hs'
    rcases List.mem_append.mp hs with hold | hlast
    · exact hnew s hold s' (List.mem_cons_of_mem _ hs')
    · obtain rfl : s = server := by simpa using hlast
      intro heq
      exact hnot (List.mem_map.mpr ⟨s', hs', heq.symm⟩)

theorem CollectOk.nil (h₀ : Heap CapabilityConfig) (m : ServerManager Ref) (userId : String)
    (user : User) : CollectOk h₀ m userId user [] h₀ .empty where
  grows := Nat.le_refl _
  frame := fun _ _ _ => rfl
  apart := fun _ _ _ _ _ _ _ _ _ he => by cases he
  origin := fun _ _ _ _ _ he => by cases he
  gives := fun _ hs => by cases hs
  values := rfl

end

/-! ## Preferences -/

/-- A server of the view with the user's preferences for it. -/
def withPreferences (prefs : Option (ServerConfigWithEnabled CapabilityConfig))
    (c : ServerConfigWithEnabled CapabilityConfig) : ServerConfigWithEnabled CapabilityConfig :=
  match prefs with
  | none => c
  | some p =>
    { c with
      toServerConfigCapabilities :=
        c.withOverrides preferenceOverride p.toServerConfigCapabilities
      enabled := p.enabled }

/-- The preferences write to this object. -/
def PreferenceWrites (l : List (String × ServerConfigWithEnabled CapabilityConfig))
    (capabilities : Dict (ServerConfigWithEnabled Ref)) (r : Ref) : Prop :=
  ∃ serverId prefs e, (serverId, prefs) ∈ l ∧ capabilities.get? serverId = some e ∧
    ServerConfigCapabilities.Overridden preferenceOverride prefs.toServerConfigCapabilities
      e.toServerConfigCapabilities r

section

variable {h : Heap CapabilityConfig} {capabilities : Dict (ServerConfigWithEnabled Ref)}
  {serverId : String} {prefs : ServerConfigWithEnabled CapabilityConfig}
  {e : ServerConfigWithEnabled Ref}

/-- Changing a field of a server of the view moves no object. -/
theorem get?_set_enabled (he : capabilities.get? serverId = some e) {sid : String}
    {e' : ServerConfigWithEnabled Ref}
    (he' : (capabilities.set serverId { e with enabled := prefs.enabled }).get? sid = some e') :
    ∃ e₀, capabilities.get? sid = some e₀ ∧
      e'.toServerConfigCapabilities = e₀.toServerConfigCapabilities := by
  rw [Dict.get?_set] at he'
  split at he'
  · rename_i hsid
    cases he'
    exact ⟨e, by rw [hsid]; exact he, rfl⟩
  · exact ⟨e', he', rfl⟩

/-- One round of the loop over the preferences. -/
theorem map_overridePreferences (prefs : ServerConfigWithEnabled CapabilityConfig)
    (hapart : Apart capabilities)
    (hholds : ∀ sid e, capabilities.get? sid = some e → e.toServerConfigCapabilities.Holds h)
    (he : capabilities.get? serverId = some e) :
    (capabilities.set serverId { e with enabled := prefs.enabled }).map
        (·.map (e.overrideAll h preferenceOverride prefs.toServerConfigCapabilities).read) =
      (capabilities.map (·.map h.read)).mapKeyed fun sid c =>
        if sid = serverId then withPreferences (some prefs) c else c := by
  have hsep : e.toServerConfigCapabilities.Separate := by
    intro kind name kind' name' r hr hr'
    exact (hapart serverId e serverId e kind name kind' name' r he he hr hr').2
  rw [Dict.set_eq_mapKeyed he, Dict.map_mapKeyed, Dict.mapKeyed_map]
  refine Dict.mapKeyed_congr ?_
  intro sid e' he'
  by_cases hsid : sid = serverId
  · subst hsid
    obtain rfl := Option.some.inj (he.symm.trans he')
    rw [if_pos rfl, if_pos rfl]
    simp only [ServerConfigWithEnabled.map, withPreferences]
    rw [ServerConfigCapabilities.map_overrideAll h preferenceOverride
      prefs.toServerConfigCapabilities hsep (hholds sid e he)]
  · -- the objects of another server are not among those written
    rw [if_neg hsid, if_neg hsid]
    simp only [ServerConfigWithEnabled.map]
    congr 1
    refine ServerConfigCapabilities.map_congr ?_
    intro kind name r hr
    refine ServerConfigCapabilities.read_overrideAll_of_not h ?_
    rintro ⟨kind', name', _, hr', _⟩
    exact hsid (hapart sid e' serverId e kind name kind' name' r he' he hr hr').1

end

/-- The loop over the preferences. -/
theorem applyPreferences_spec (h : Heap CapabilityConfig)
    (capabilities : Dict (ServerConfigWithEnabled Ref))
    (l : List (String × ServerConfigWithEnabled CapabilityConfig))
    (hapart : Apart capabilities)
    (hholds : ∀ sid e, capabilities.get? sid = some e → e.toServerConfigCapabilities.Holds h)
    (hnodup : (l.map Prod.fst).Nodup) :
    (applyPreferences h capabilities l).1.length = h.length ∧
    (∀ r, ¬PreferenceWrites l capabilities r →
      (applyPreferences h capabilities l).1.read r = h.read r) ∧
    (applyPreferences h capabilities l).2.map (·.map (applyPreferences h capabilities l).1.read) =
      (capabilities.map (·.map h.read)).mapKeyed fun sid c => withPreferences (l.lookup sid) c := by
  induction l generalizing h capabilities with
  | nil =>
    refine ⟨rfl, fun _ _ => rfl, ?_⟩
    rw [Dict.mapKeyed_map]
    rfl
  | cons p l ih =>
    obtain ⟨serverId, prefs⟩ := p
    rw [List.map_cons] at hnodup
    obtain ⟨hnot, hrest⟩ := List.nodup_cons.mp hnodup
    have hlookup : l.lookup serverId = none := by
      rw [List.lookup_eq_none_iff]
      intro q hq
      rw [bne_iff_ne]
      intro heq
      exact hnot (List.mem_map.mpr ⟨q, hq, heq.symm⟩)
    simp only [applyPreferences]
    cases he : capabilities.get? serverId with
    | none =>
      obtain ⟨hlen, hframe, hvalues⟩ := ih h capabilities hapart hholds hrest
      refine ⟨hlen, ?_, ?_⟩
      · intro r hr
        refine hframe r ?_
        rintro ⟨sid, q, e, hq, hget, hover⟩
        exact hr ⟨sid, q, e, List.mem_cons_of_mem _ hq, hget, hover⟩
      · rw [hvalues, Dict.mapKeyed_map, Dict.mapKeyed_map]
        refine Dict.mapKeyed_congr ?_
        intro sid e' he'
        have hne : sid ≠ serverId := by
          rintro rfl
          cases he.symm.trans he'
        rw [List.lookup_cons, beq_false_of_ne hne]
    | some e =>
      have hstep := map_overridePreferences prefs hapart hholds he
      obtain ⟨hlen, hframe, hvalues⟩ := ih
        (e.overrideAll h preferenceOverride prefs.toServerConfigCapabilities)
        (capabilities.set serverId { e with enabled := prefs.enabled })
        (by
          intro sid e₁ sid' e₂ kind name kind' name' r he₁ he₂ hr hr'
          obtain ⟨e₁', he₁', heq₁⟩ := get?_set_enabled he he₁
          obtain ⟨e₂', he₂', heq₂⟩ := get?_set_enabled he he₂
          rw [heq₁] at hr
          rw [heq₂] at hr'
          exact hapart sid e₁' sid' e₂' kind name kind' name' r he₁' he₂' hr hr')
        (by
          intro sid e₁ he₁
          obtain ⟨e₁', he₁', heq₁⟩ := get?_set_enabled he he₁
          rw [heq₁]
          intro kind name r hr
          rw [ServerConfigCapabilities.length_overrideAll]
          exact hholds sid e₁' he₁' kind name r hr)
        hrest
      refine ⟨?_, ?_, ?_⟩
      · rw [hlen, ServerConfigCapabilities.length_overrideAll]
      · intro r hr
        rw [hframe r, ServerConfigCapabilities.read_overrideAll_of_not]
        · intro hover
          exact hr ⟨serverId, prefs, e, List.mem_cons_self, he, hover⟩
        · rintro ⟨sid, q, e₁, hq, he₁, hover⟩
          obtain ⟨e₁', he₁', heq₁⟩ := get?_set_enabled he he₁
          rw [heq₁] at hover
          exact hr ⟨sid, q, e₁', List.mem_cons_of_mem _ hq, he₁', hover⟩
      · rw [hvalues, hstep, Dict.mapKeyed_mapKeyed]
        refine Dict.mapKeyed_congr ?_
        intro sid c _
        by_cases hsid : sid = serverId
        · subst hsid
          rw [if_pos rfl, hlookup, List.lookup_cons_self]
          rfl
        · rw [if_neg hsid, List.lookup_cons, beq_false_of_ne hsid]

/-! ## The view of a user -/

/-- `getUserCapabilities` by value: the enabled servers, less what is switched off, with the
    preferences written over them. -/
def viewUser (m : ServerManager CapabilityConfig) (servers : Dict Server) (userId : String)
    (user : User) : Permissions :=
  let all := Dict.ofList ((servers.values.filter (·.enabled)).map fun server =>
    (server.serverId, viewServer user server (viewContext m userId server)))
  let shown := (all.filter fun c => c.enabled != some false).map fun c =>
    { c with toServerConfigCapabilities := c.keepEnabled }
  shown.mapKeyed fun serverId c =>
    withPreferences ((user.userPreferences.getD .empty).get? serverId) c

/-- The preferences of the user write to this object of a configuration. -/
def PreferenceOverrides (h : Heap CapabilityConfig) (m : ServerManager Ref) (userId : String)
    (user : User) (server : Server) (r : Ref) : Prop :=
  ∃ kind name prefs, GivesOut m userId server kind name r ∧
    (h.read r).enabled ≠ some false ∧ serverEnabled user server = true ∧
    (user.userPreferences.getD .empty).get? server.serverId = some prefs ∧
    ((prefs.get kind).get? name).isSome

/-- Building the view of the user writes to this object of a configuration. -/
def ReadWrites (s : CapabilityState) (userId : String) (user : User) (r : Ref) : Prop :=
  ∃ server ∈ s.servers.values, server.enabled = true ∧
    (PermissionWrites s.heap s.manager userId user server r ∨
      PreferenceOverrides s.heap s.manager userId user server r)

/-- The configurations are in order and the rows of `server` are found under their ids. -/
structure Ok (s : CapabilityState) : Prop where
  configs : ConfigsOk s.heap s.manager
  keyed : ∀ serverId server, s.servers.get? serverId = some server → server.serverId = serverId

variable {s : CapabilityState}

theorem Ok.nodup_servers (hs : s.Ok) :
    ((s.servers.values.filter (·.enabled)).map (·.serverId)).Nodup := by
  have hkeys : s.servers.values.map (·.serverId) = s.servers.entries.map Prod.fst := by
    rw [Dict.values, List.map_map]
    refine List.map_congr_left ?_
    intro p hp
    exact hs.keyed p.1 p.2 ((s.servers.mem_entries p.1 p.2).mp hp)
  have hnodup : (s.servers.values.map (·.serverId)).Nodup := by
    rw [hkeys]
    exact s.servers.nodup
  exact hnodup.sublist ((List.filter_sublist).map _)

theorem collectOk (hs : s.Ok) (userId : String) (user : User) :
    CollectOk s.heap s.manager userId user (s.servers.values.filter (·.enabled))
      (s.getCapabilitiesFromDatabase userId user).1
      (s.getCapabilitiesFromDatabase userId user).2 := by
  have hcol := (CollectOk.nil s.heap s.manager userId user).collect hs.configs
    (s.servers.values.filter (·.enabled)) (fun _ h => by cases h) hs.nodup_servers
  rw [List.nil_append] at hcol
  exact hcol

/-- The entries that the view shows before the preferences. -/
def shown (h : Heap CapabilityConfig) (all : Dict (ServerConfigWithEnabled Ref)) :
    Dict (ServerConfigWithEnabled Ref) :=
  (all.filter fun caps => caps.enabled != some false).map fun caps =>
    { caps with toServerConfigCapabilities := caps.dropDisabled h }

theorem get?_shown {h : Heap CapabilityConfig} {all : Dict (ServerConfigWithEnabled Ref)}
    {serverId : String} {e : ServerConfigWithEnabled Ref}
    (he : (shown h all).get? serverId = some e) :
    ∃ e', all.get? serverId = some e' ∧ e'.enabled ≠ some false ∧
      e = { e' with toServerConfigCapabilities := e'.dropDisabled h } := by
  rw [shown, Dict.get?_map, Dict.get?_filter] at he
  obtain ⟨e', hfilter, rfl⟩ := Option.map_eq_some_iff.mp he
  obtain ⟨he', hkeep⟩ := Option.filter_eq_some_iff.mp hfilter
  exact ⟨e', he', by simpa using hkeep, rfl⟩

theorem map_shown (h : Heap CapabilityConfig) (all : Dict (ServerConfigWithEnabled Ref)) :
    (shown h all).map (·.map h.read) =
      ((all.map (·.map h.read)).filter fun c => c.enabled != some false).map fun c =>
        { c with toServerConfigCapabilities := c.keepEnabled } := by
  rw [shown, Dict.map_map, Dict.map_filter, Dict.map_map]
  refine Dict.map_congr ?_
  intro serverId e _
  simp only [ServerConfigWithEnabled.map, ServerConfigCapabilities.map_dropDisabled]

section

variable {h₀ h : Heap CapabilityConfig} {m : ServerManager Ref} {userId : String} {user : User}
  {done : List Server} {all : Dict (ServerConfigWithEnabled Ref)}

theorem CollectOk.apart_shown (hcol : CollectOk h₀ m userId user done h all) :
    Apart (shown h all) := by
  intro sid e₁ sid' e₂ kind name kind' name' r he₁ he₂ hr hr'
  obtain ⟨e₁', he₁', _, rfl⟩ := get?_shown he₁
  obtain ⟨e₂', he₂', _, rfl⟩ := get?_shown he₂
  exact hcol.apart sid e₁' sid' e₂' kind name kind' name' r he₁' he₂'
    (ServerConfigCapabilities.ref?_dropDisabled hr).1
    (ServerConfigCapabilities.ref?_dropDisabled hr').1

theorem CollectOk.holds_shown (hcol : CollectOk h₀ m userId user done h all)
    (hok : ConfigsOk h₀ m) (sid : String) (e : ServerConfigWithEnabled Ref)
    (he : (shown h all).get? sid = some e) : e.toServerConfigCapabilities.Holds h := by
  intro kind name r hr
  obtain ⟨e', he', _, rfl⟩ := get?_shown he
  rcases hcol.origin sid e' kind name r he'
    (ServerConfigCapabilities.ref?_dropDisabled hr).1 with ⟨_, _, _, hout⟩ | ⟨_, hlt⟩
  · exact Nat.lt_of_lt_of_le (hout.lt hok) hcol.grows
  · exact hlt

/-- An entry of the collection has the values of its server's view. -/
theorem CollectOk.entry (hcol : CollectOk h₀ m userId user done h all)
    (hnodup : (done.map (·.serverId)).Nodup) {server : Server} (hserver : server ∈ done)
    {e : ServerConfigWithEnabled Ref} (he : all.get? server.serverId = some e) :
    e.map h.read =
      viewServer user server ((viewContext m userId server).map (·.map h₀.read)) := by
  have hget : (all.map (·.map h.read)).get? server.serverId = some (e.map h.read) := by
    rw [Dict.get?_map, he]
    rfl
  have hrow : (server.serverId,
      viewServer user server ((viewContext m userId server).map (·.map h₀.read))) ∈
      done.map fun server => (server.serverId,
        viewServer user server ((viewContext m userId server).map (·.map h₀.read))) :=
    List.mem_map.mpr ⟨server, hserver, rfl⟩
  rw [hcol.values, Dict.get?_ofList (by rw [List.map_map]; exact hnodup) hrow] at hget
  exact (Option.some.inj hget).symm

end

variable {user : User}

theorem getUserCapabilities_eq (hu : s.users.get? userId = some user) :
    s.getUserCapabilities userId =
      ({ s with heap := (applyPreferences (s.getCapabilitiesFromDatabase userId user).1
          (shown (s.getCapabilitiesFromDatabase userId user).1
            (s.getCapabilitiesFromDatabase userId user).2)
          (user.userPreferences.getD .empty).entries).1 },
        (applyPreferences (s.getCapabilitiesFromDatabase userId user).1
          (shown (s.getCapabilitiesFromDatabase userId user).1
            (s.getCapabilitiesFromDatabase userId user).2)
          (user.userPreferences.getD .empty).entries).2) := by
  simp only [getUserCapabilities, hu, shown]

/-- What building a view does: it adds objects, writes at most to those that the user's
    permissions and preferences override, and gives the view of the values. -/
theorem getUserCapabilities_spec (hs : s.Ok) (hu : s.users.get? userId = some user) :
    s.heap.length ≤ (s.getUserCapabilities userId).1.heap.length ∧
    (∀ r, r < s.heap.length → ¬ReadWrites s userId user r →
      (s.getUserCapabilities userId).1.heap.read r = s.heap.read r) ∧
    s.userView userId = viewUser s.view s.servers userId user := by
  have hcol := collectOk hs userId user
  simp only [userView]
  rw [getUserCapabilities_eq hu]
  generalize (s.getCapabilitiesFromDatabase userId user).1 = h at hcol ⊢
  generalize (s.getCapabilitiesFromDatabase userId user).2 = all at hcol ⊢
  obtain ⟨hlen, hframe, hvalues⟩ := applyPreferences_spec h (shown h all)
    (user.userPreferences.getD .empty).entries (hcol.apart_shown) (hcol.holds_shown hs.configs)
    (user.userPreferences.getD .empty).nodup
  refine ⟨?_, ?_, ?_⟩
  · rw [hlen]
    exact hcol.grows
  · intro r hr hnot
    have hperm : h.read r = s.heap.read r := by
      refine hcol.frame r hr ?_
      intro server hserver hw
      obtain ⟨hmem, henabled⟩ := List.mem_filter.mp hserver
      exact hnot ⟨server, hmem, henabled, .inl hw⟩
    rw [← hperm]
    refine hframe r ?_
    rintro ⟨sid, prefs, e, hprefs, he, kind, name, o, href, ho, _⟩
    obtain ⟨e', he', henabled', rfl⟩ := get?_shown he
    obtain ⟨href', hread⟩ := ServerConfigCapabilities.ref?_dropDisabled href
    rcases hcol.origin sid e' kind name r he' href' with ⟨server, hserver, rfl, hout⟩ | ⟨hge, _⟩
    · -- the server of the entry is the one whose object this is
      have henabled : some (serverEnabled user server) = e'.enabled :=
        (congrArg (·.enabled) (hcol.entry hs.nodup_servers hserver he')).symm
      obtain ⟨hmem, hrow⟩ := List.mem_filter.mp hserver
      rw [hperm] at hread
      refine hnot ⟨server, hmem, hrow, .inr ⟨kind, name, prefs, hout, hread, ?_, ?_, ?_⟩⟩
      · rw [← henabled] at henabled'
        simpa using henabled'
      · exact (Dict.mem_entries _ _ _).mp hprefs
      · rw [ho]
        rfl
    · exact absurd (Nat.lt_of_lt_of_le hr hge) (Nat.lt_irrefl r)
  · rw [hvalues, map_shown, hcol.values]
    simp only [viewUser, view]
    have hcontext : ∀ server, viewContext (s.manager.map s.heap.read) userId server =
        (viewContext s.manager userId server).map (·.map s.heap.read) := by
      intro server
      rw [viewContext_eq, viewContext_eq, contextAt_map]
    simp only [hcontext]
    rfl

/-! ## What stays in the objects -/

/-- The value of an entry with the user's permission for it. -/
def permitted (user : User) (serverId : String) (kind : CapabilityKind) (name : String)
    (v : CapabilityConfig) : CapabilityConfig :=
  match user.permissions.get? serverId with
  | none => v
  | some perms =>
    ServerConfigCapabilities.overrideValue permissionOverride perms.toServerConfigCapabilities
      kind name v

/-- The value of an entry with the user's preference for it. -/
def preferred (user : User) (serverId : String) (kind : CapabilityKind) (name : String)
    (v : CapabilityConfig) : CapabilityConfig :=
  match (user.userPreferences.getD .empty).get? serverId with
  | none => v
  | some prefs =>
    ServerConfigCapabilities.overrideValue preferenceOverride prefs.toServerConfigCapabilities
      kind name v

/-- What building the user's view leaves in an object of a context's configuration. -/
def writeBack (user : User) (server : Server) (loaded : Bool) (kind : CapabilityKind)
    (name : String) (v : CapabilityConfig) : CapabilityConfig :=
  if loaded = true ∨ v.enabled = some false then v
  else if serverEnabled user server = true ∧
      (permitted user server.serverId kind name v).enabled ≠ some false then
    preferred user server.serverId kind name (permitted user server.serverId kind name v)
  else permitted user server.serverId kind name v

/-- An item of a server's view before the preferences. -/
theorem get?_viewServer (user : User) (server : Server)
    (context : Option (ServerContext CapabilityConfig)) (kind : CapabilityKind)
    (name : String) :
    ((viewServer user server context).get kind).get? name =
      (((announcedBy server context).get kind).get? name).bind fun v =>
        if v.enabled = some false then none
        else some (permitted user server.serverId kind name v) := by
  have hkeep : ((announcedBy server context).keepEnabled.get kind).get? name =
      (((announcedBy server context).get kind).get? name).bind fun v =>
        if v.enabled = some false then none else some v := by
    rw [ServerConfigCapabilities.get_keepEnabled, Dict.get?_filter]
    cases ((announcedBy server context).get kind).get? name with
    | none => rfl
    | some v =>
      rw [Option.filter_some, Option.bind_some]
      by_cases hv : v.enabled = some false
      · rw [if_pos hv, hv]
        rfl
      · rw [if_neg hv, if_pos (by simpa using hv)]
  simp only [viewServer, permitted]
  cases user.permissions.get? server.serverId with
  | none => exact hkeep
  | some perms =>
    simp only [ServerConfigCapabilities.get_withOverrides, Dict.get?_mapKeyed, hkeep]
    cases ((announcedBy server context).get kind).get? name with
    | none => rfl
    | some v =>
      rw [Option.bind_some, Option.bind_some]
      split
      all_goals rfl

/-- An item of a user's view is an item that the server announces, with the user's permission
    and preference for it. -/
theorem get?_viewUser {m : ServerManager CapabilityConfig} {servers : Dict Server}
    (hkeyed : ∀ serverId server, servers.get? serverId = some server →
      server.serverId = serverId)
    {serverId : String} {e : ServerConfigWithEnabled CapabilityConfig}
    (he : (viewUser m servers userId user).get? serverId = some e) (kind : CapabilityKind)
    {name : String} {v : CapabilityConfig} (hv : (e.get kind).get? name = some v) :
    ∃ server a, servers.get? serverId = some server ∧
      ((announcedBy server (viewContext m userId server)).get kind).get? name = some a ∧
      v = preferred user serverId kind name (permitted user serverId kind name a) := by
  simp only [viewUser, Dict.get?_mapKeyed, Dict.get?_map, Dict.get?_filter] at he
  obtain ⟨e₁, he₁, rfl⟩ := Option.map_eq_some_iff.mp he
  obtain ⟨e₂, hfilter, rfl⟩ := Option.map_eq_some_iff.mp he₁
  obtain ⟨hall, _⟩ := Option.filter_eq_some_iff.mp hfilter
  obtain ⟨server, hserver, hpair⟩ := List.mem_map.mp (Dict.mem_of_get?_ofList hall)
  obtain ⟨rfl, rfl⟩ := Prod.mk.inj hpair
  obtain ⟨key, hkey⟩ := Dict.mem_values (List.mem_filter.mp hserver).1
  obtain rfl := hkeyed key server hkey
  -- the entry shown before the preferences
  have hshown : ∀ o : CapabilityConfig,
      ((viewServer user server (viewContext m userId server)).keepEnabled.get kind).get? name =
        some o → ∃ a, ((announcedBy server (viewContext m userId server)).get kind).get? name =
          some a ∧ o = permitted user server.serverId kind name a := by
    intro o ho
    rw [ServerConfigCapabilities.get_keepEnabled, Dict.get?_filter, get?_viewServer] at ho
    obtain ⟨hbind, _⟩ := Option.filter_eq_some_iff.mp ho
    obtain ⟨a, ha, hif⟩ := Option.bind_eq_some_iff.mp hbind
    split at hif
    · cases hif
    · exact ⟨a, ha, (Option.some.inj hif).symm⟩
  simp only [withPreferences] at hv
  simp only [preferred]
  cases hprefs : (user.userPreferences.getD .empty).get? server.serverId with
  | none =>
    simp only [hprefs] at hv
    obtain ⟨a, ha, rfl⟩ := hshown v hv
    exact ⟨server, a, hkey, ha, rfl⟩
  | some prefs =>
    simp only [hprefs, ServerConfigCapabilities.get_withOverrides, Dict.get?_mapKeyed] at hv
    obtain ⟨o, ho, rfl⟩ := Option.map_eq_some_iff.mp hv
    obtain ⟨a, ha, rfl⟩ := hshown o ho
    exact ⟨server, a, hkey, ha, rfl⟩

/-- The loop over the preferences moves no object. -/
theorem get?_applyPreferences (h : Heap CapabilityConfig)
    (capabilities : Dict (ServerConfigWithEnabled Ref))
    (l : List (String × ServerConfigWithEnabled CapabilityConfig)) {serverId : String}
    {e : ServerConfigWithEnabled Ref} (he : capabilities.get? serverId = some e) :
    ∃ e', (applyPreferences h capabilities l).2.get? serverId = some e' ∧
      e'.toServerConfigCapabilities = e.toServerConfigCapabilities := by
  induction l generalizing h capabilities e with
  | nil => exact ⟨e, he, rfl⟩
  | cons p l ih =>
    simp only [applyPreferences]
    cases hp : capabilities.get? p.1 with
    | none => exact ih h capabilities he
    | some caps =>
      by_cases hsid : serverId = p.1
      · subst hsid
        obtain rfl := Option.some.inj (hp.symm.trans he)
        obtain ⟨e', he', heq⟩ := ih
          (caps.overrideAll h preferenceOverride p.2.toServerConfigCapabilities) _
          (Dict.get?_set_self capabilities p.1 { caps with enabled := p.2.enabled })
        exact ⟨e', he', heq⟩
      · exact ih (caps.overrideAll h preferenceOverride p.2.toServerConfigCapabilities) _
          (by rw [Dict.get?_set_ne _ _ hsid]; exact he)

/-- What building the view of a user leaves in the objects of a context it is taken from. -/
theorem read_getUserCapabilities (hs : s.Ok)
    (hu : s.users.get? userId = some user) {server : Server}
    (hserver : server ∈ s.servers.values) (henabled : server.enabled = true)
    {c : ServerContext Ref} (hc : viewContext s.manager userId server = some c)
    {kind : CapabilityKind} {name : String} {r : Ref}
    (hr : c.capabilitiesConfig.ref? kind name = some r) :
    (s.getUserCapabilities userId).1.heap.read r =
      writeBack user server (c.lists.isLoaded kind) kind name (s.heap.read r) := by
  have hlt : r < s.heap.length := by
    rw [viewContext_eq] at hc
    exact hs.configs.holds _ c hc kind name r hr
  simp only [writeBack]
  by_cases hskip : c.lists.isLoaded kind = true ∨ (s.heap.read r).enabled = some false
  · -- the object is not given out, or is taken from the view
    rw [if_pos hskip]
    refine (getUserCapabilities_spec hs hu).2.1 r hlt ?_
    have hnot : ∀ server' kind' name', GivesOut s.manager userId server' kind' name' r →
        (s.heap.read r).enabled ≠ some false → False := by
      rintro server' kind' name' ⟨c', hc', hout⟩ hread
      rw [viewContext_eq] at hc hc'
      obtain ⟨hloc, rfl, rfl⟩ :=
        hs.configs.separate _ c' _ c kind' name' kind name r hc' hc hout.2 hr
      rw [hloc] at hc'
      obtain rfl := Option.some.inj (hc'.symm.trans hc)
      rcases hskip with hload | hoff
      · cases hload.symm.trans hout.1
      · exact hread hoff
    rintro ⟨server', _, _, ⟨kind', name', _, _, hout, hread, _⟩ | ⟨kind', name', _, hout, hread, _⟩⟩
    all_goals exact hnot server' kind' name' hout hread
  · rw [if_neg hskip]
    obtain ⟨hload, hon⟩ := not_or.mp hskip
    have hout : GivesOut s.manager userId server kind name r := ⟨c, hc, by simpa using hload, hr⟩
    have hmem : server ∈ s.servers.values.filter (·.enabled) :=
      List.mem_filter.mpr ⟨hserver, henabled⟩
    have hcol := collectOk hs userId user
    rw [getUserCapabilities_eq hu]
    generalize (s.getCapabilitiesFromDatabase userId user).1 = h at hcol ⊢
    generalize (s.getCapabilitiesFromDatabase userId user).2 = all at hcol ⊢
    obtain ⟨e, he, href⟩ := hcol.gives server hmem kind name r hout hon
    have hentry := hcol.entry hs.nodup_servers hmem he
    -- after the first loop the object has the permission
    have hpermitted : h.read r = permitted user server.serverId kind name (s.heap.read r) := by
      have hget : ((e.map h.read).get kind).get? name = some (h.read r) := by
        have hr' : (e.get kind).get? name = some r := href
        simp only [ServerConfigWithEnabled.map, ServerConfigCapabilities.get_map,
          Dict.get?_map, hr', Option.map_some]
      have hann : ((announcedBy server
          ((viewContext s.manager userId server).map (·.map s.heap.read))).get kind).get? name =
          some (s.heap.read r) := by
        rw [hc]
        have hkind : (c.map s.heap.read).announced.get kind =
            (c.capabilitiesConfig.map s.heap.read).get kind := by
          cases kind <;> exact if_neg hload
        have hr' : (c.capabilitiesConfig.get kind).get? name = some r := hr
        simp only [Option.map_some, announcedBy, hkind, ServerConfigCapabilities.get_map,
          Dict.get?_map, hr']
      rw [hentry, get?_viewServer, hann, Option.bind_some, if_neg hon] at hget
      exact (Option.some.inj hget).symm
    have hserverEnabled : e.enabled = some (serverEnabled user server) :=
      congrArg (·.enabled) hentry
    obtain ⟨_, hframe, hvalues⟩ := applyPreferences_spec h (shown h all)
      (user.userPreferences.getD .empty).entries hcol.apart_shown
      (hcol.holds_shown hs.configs) (user.userPreferences.getD .empty).nodup
    split
    · rename_i hshow
      obtain ⟨hpub, hkeep⟩ := hshow
      -- the entry is shown, so the second loop treats it as well
      have hshown : (shown h all).get? server.serverId =
          some { e with toServerConfigCapabilities := e.dropDisabled h } := by
        rw [shown, Dict.get?_map, Dict.get?_filter, he, Option.filter_some_pos]
        · rfl
        · rw [hserverEnabled, hpub]
          rfl
      have hrefShown : (e.dropDisabled h).ref? kind name = some r := by
        have hr' : (e.get kind).get? name = some r := href
        rw [ServerConfigCapabilities.ref?, ServerConfigCapabilities.get_dropDisabled,
          Dict.get?_filter, hr', Option.filter_some_pos]
        rw [hpermitted]
        simpa using hkeep
      obtain ⟨e', he', heq⟩ := get?_applyPreferences h (shown h all)
        (user.userPreferences.getD .empty).entries hshown
      have hleft := congrArg (fun d => (d.get? server.serverId).bind
        fun e => (e.get kind).get? name) hvalues
      have hr'' : ((e.dropDisabled h).get kind).get? name = some r := hrefShown
      simp only [Dict.get?_map, Dict.get?_mapKeyed, he', hshown, Option.map_some,
        Option.bind_some, ServerConfigWithEnabled.map, heq, ServerConfigCapabilities.get_map,
        hr''] at hleft
      have hlookup : List.lookup server.serverId (user.userPreferences.getD .empty).entries =
          (user.userPreferences.getD .empty).get? server.serverId := rfl
      rw [hlookup] at hleft
      simp only [preferred, withPreferences] at hleft ⊢
      cases hprefs : (user.userPreferences.getD .empty).get? server.serverId with
      | none =>
        simp only [hprefs, ServerConfigCapabilities.get_map, Dict.get?_map, hr'',
          Option.map_some] at hleft
        rw [Option.some.inj hleft, hpermitted]
      | some prefs =>
        simp only [hprefs, ServerConfigCapabilities.get_withOverrides,
          ServerConfigCapabilities.get_map, Dict.get?_map, Dict.get?_mapKeyed, hr'',
          Option.map_some] at hleft
        rw [Option.some.inj hleft, hpermitted]
    · rename_i hhide
      rw [← hpermitted]
      refine hframe r ?_
      rintro ⟨sid, prefs, e', _, he', kind', name', _, href', _⟩
      obtain ⟨e₀, he₀, hpub, rfl⟩ := get?_shown he'
      obtain ⟨href₀, hread⟩ := ServerConfigCapabilities.ref?_dropDisabled href'
      obtain ⟨rfl, rfl, rfl⟩ := hcol.apart sid e₀ server.serverId e kind' name' kind name r he₀
        he href₀ href
      obtain rfl := Option.some.inj (he₀.symm.trans he)
      rw [hserverEnabled] at hpub
      rw [hpermitted] at hread
      exact hhide ⟨by simpa using hpub, hread⟩

end CapabilityState

end PetaCore
