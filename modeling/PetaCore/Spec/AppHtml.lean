import PetaCore.ForStd.Replacement
import PetaCore.Spec.AppResource

/-!
# References in app HTML

The names of a server are replaced in HTML one after the other, the longer ones first. A scan that
replaces each reference once does the same for every text exactly if what replaces a name holds no
part of a later name.

Key results:
- `splitJoin_eq_replace`: `split` and `join` replace one name
- `rewriteText_eq_once_iff`: when the two give the same
- `app_html_rewritten_once`: the same for the results of both controllers
-/

namespace PetaCore

open ClientSession Replacement

/-! ## split and join -/

theorem splitChars_ne_nil (separator current text : List Char) (skip : Nat) :
    splitChars separator current skip text ≠ [] := by
  induction text generalizing current skip with
  | nil => cases skip <;> simp [splitChars]
  | cons c text ih =>
    cases skip with
    | succ skip => exact ih current skip
    | zero =>
      rw [splitChars]
      split
      · exact List.cons_ne_nil _ _
      · exact ih (c :: current) 0

/-- What `splitChars` cuts, joined again. -/
theorem intercalate_splitChars {original mark : List Char} (h : original ≠ [])
    (current text : List Char) (skip : Nat) :
    (original ++ mark).intercalate (splitChars original current skip text) =
      current.reverse ++ scan [original] mark skip text := by
  induction text generalizing current skip with
  | nil => cases skip <;> simp [splitChars, scan, List.intercalate_singleton]
  | cons c text ih =>
    cases skip with
    | succ skip => exact ih current skip
    | zero =>
      rw [splitChars, scan]
      by_cases hbegins : original <+: c :: text
      · obtain ⟨rest, hrest⟩ := hbegins
        have hlongest : longestPrefix (c :: text) [original] = some original :=
          hrest ▸ longestPrefix_singleton_eq_some h rest
        rw [if_pos (List.isPrefixOf_iff_prefix.mpr ⟨rest, hrest⟩), hlongest,
          List.intercalate_cons_of_ne_nil (splitChars_ne_nil original [] text _), ih]
        simp
      · rw [if_neg (fun hp => hbegins (List.isPrefixOf_iff_prefix.mp hp)),
          longestPrefix_singleton_eq_none hbegins, ih]
        simp

/-- `split` and `join` replace every occurrence of a name. -/
theorem splitJoin_eq_replace {original : String} (h : original ≠ "") (mark text : String) :
    (splitJoin original (original ++ mark) text).toList =
      replace original.toList mark.toList text.toList := by
  have hne : original.toList ≠ [] := by simpa using h
  rw [splitJoin, if_neg hne, String.toList_ofList, String.toList_append,
    intercalate_splitChars hne]
  rfl

/-- Joining the characters of a text puts something between them. -/
theorem length_intercalate_singletons {mark : List Char} (hmark : mark ≠ []) (text : List Char) :
    text.length ≤ (mark.intercalate (text.map fun c => [c])).length ∧
      (2 ≤ text.length → text.length < (mark.intercalate (text.map fun c => [c])).length) := by
  have hpos := List.length_pos_of_ne_nil hmark
  induction text with
  | nil => simp
  | cons c text ih =>
    cases text with
    | nil => simp [List.intercalate_singleton]
    | cons d text =>
      have hmap : (c :: d :: text).map (fun c => [c]) =
          [c] :: [d] :: text.map fun c => [c] := rfl
      have htail : [d] :: text.map (fun c => [c]) = (d :: text).map fun c => [c] := rfl
      rw [hmap, List.intercalate_cons_cons, htail]
      simp only [List.length_append, List.length_cons, List.length_nil] at ih ⊢
      omega

/-! ## The names of a server -/

section

variable (c : ServerContext CapabilityConfig)

/-- The names of the tools and the URIs of the resources of a server. -/
def offeredNames : List String :=
  ((c.toolsData.getD []).map fun tool => tool.name) ++
    (c.resourcesData.getD []).map fun resource => resource.uri

/-- What a gateway name adds to a name. -/
def gatewayMark : String := "_-_" ++ c.id

/-- A text in which each reference is replaced once by its gateway name. -/
def rewriteOnce (text : String) : String :=
  String.ofList (once ((offeredNames c).map String.toList) (gatewayMark c).toList text.toList)

/-- The names in the order in which they are replaced. -/
def replacedNames : List (List Char) :=
  (buildAppResourceReplacements c).map fun r => r.1.toList

/-- The server offers nothing without a name, and what replaces a name holds no part of a name that
is replaced later. -/
structure SeparateNames : Prop where
  nonempty : ∀ name ∈ offeredNames c, name ≠ ""
  separate : (replacedNames c).Pairwise (Separate (gatewayMark c).toList)

variable {c}

theorem gatewayMark_ne_nil : (gatewayMark c).toList ≠ [] := by
  simp [gatewayMark]

/-- The replacements lead from the names of the server to their gateway names. -/
theorem mem_buildAppResourceReplacements {r : String × String} :
    r ∈ buildAppResourceReplacements c ↔
      r.1 ∈ offeredNames c ∧ r.2 = r.1 ++ gatewayMark c := by
  have hnames : ((c.toolsData.getD []).map fun tool =>
        (tool.name, generateNewName c.id tool.name)) ++
      (c.resourcesData.getD []).map (fun resource =>
        (resource.uri, generateNewName c.id resource.uri)) =
      (offeredNames c).map fun name => (name, name ++ gatewayMark c) := by
    simp [offeredNames, generateNewName, gatewayMark, Function.comp_def, String.append_assoc]
  unfold buildAppResourceReplacements
  simp only [List.mem_insertionSort, hnames]
  obtain ⟨name, gateway⟩ := r
  rw [Dict.mem_entries]
  constructor
  · intro h
    obtain ⟨name', hname', heq⟩ := List.mem_map.mp (Dict.mem_of_get?_ofList h)
    obtain ⟨rfl, rfl⟩ := Prod.mk.inj heq
    exact ⟨hname', rfl⟩
  · intro h
    obtain ⟨hname, hgateway⟩ := h
    have hgateway' : gateway = name ++ gatewayMark c := hgateway
    subst hgateway'
    have hmem := List.mem_map_of_mem (f := fun name => (name, name ++ gatewayMark c)) hname
    obtain ⟨gateway, hmem', hget⟩ := Dict.get?_setAll_of_mem (d := .empty) hmem
    obtain ⟨name', _, heq⟩ := List.mem_map.mp hmem'
    obtain ⟨rfl, rfl⟩ := Prod.mk.inj heq
    exact hget

theorem mem_replacedNames (n : List Char) :
    n ∈ replacedNames c ↔ n ∈ (offeredNames c).map String.toList := by
  constructor
  · intro h
    obtain ⟨r, hr, rfl⟩ := List.mem_map.mp h
    exact List.mem_map_of_mem (mem_buildAppResourceReplacements.mp hr).1
  · intro h
    obtain ⟨name, hname, rfl⟩ := List.mem_map.mp h
    exact List.mem_map.mpr ⟨(name, name ++ gatewayMark c),
      mem_buildAppResourceReplacements.mpr ⟨hname, rfl⟩, rfl⟩

theorem nodup_replacedNames : (replacedNames c).Nodup := by
  have hkeys : ((buildAppResourceReplacements c).map Prod.fst).Nodup := by
    unfold buildAppResourceReplacements
    exact ((List.perm_insertionSort _ _).map Prod.fst).nodup_iff.mpr (Dict.nodup _)
  have hmap : replacedNames c =
      ((buildAppResourceReplacements c).map Prod.fst).map String.toList := by
    rw [replacedNames, List.map_map]
    rfl
  rw [hmap]
  exact hkeys.map fun _ _ h => String.toList_inj.mp h

/-- A text is longer than what occurs in it. -/
theorem utf16Length_lt_of_infix {m n : String} (h : m.toList <:+: n.toList) (hne : m ≠ n) :
    utf16Length m < utf16Length n := by
  obtain ⟨a, b, hab⟩ := h
  have hunits : ∀ l : List Char, l ≠ [] → 0 < (l.flatMap Json.codeUnits).length := by
    intro l hl
    cases l with
    | nil => exact absurd rfl hl
    | cons ch l =>
      rw [List.flatMap_cons, List.length_append, Json.codeUnits]
      split <;> simp only [List.length_cons] <;> omega
  have hlen : utf16Length n = (a.flatMap Json.codeUnits).length + utf16Length m +
      (b.flatMap Json.codeUnits).length := by
    rw [utf16Length, ← hab, List.flatMap_append, List.flatMap_append, List.length_append,
      List.length_append]
    rfl
  by_cases ha : a = []
  · by_cases hb : b = []
    · rw [ha, hb, List.nil_append, List.append_nil] at hab
      exact absurd (String.toList_inj.mp hab) hne
    · have hpos := hunits b hb
      omega
  · have hpos := hunits a ha
    omega

instance : Std.Total fun a b : String × String => utf16Length b.1 ≤ utf16Length a.1 :=
  ⟨fun a b => Nat.le_total (utf16Length b.1) (utf16Length a.1)⟩

instance : IsTrans (String × String) fun a b => utf16Length b.1 ≤ utf16Length a.1 :=
  ⟨fun _ _ _ h h' => h'.trans h⟩

/-- The longer names are replaced first. -/
theorem pairwise_utf16Length : (buildAppResourceReplacements c).Pairwise fun a b =>
    utf16Length b.1 ≤ utf16Length a.1 :=
  List.pairwise_insertionSort _ _

theorem pairwise_replacedNames : (replacedNames c).Pairwise fun m n => ¬m <:+: n := by
  have hdistinct : (buildAppResourceReplacements c).Pairwise fun a b => a.1.toList ≠ b.1.toList :=
    List.pairwise_map.mp nodup_replacedNames
  rw [replacedNames, List.pairwise_map]
  refine (pairwise_utf16Length.and hdistinct).imp ?_
  intro a b hab hoccurs
  obtain ⟨hle, hne⟩ := hab
  have hlt := utf16Length_lt_of_infix hoccurs fun heq => hne (by rw [heq])
  omega

theorem ordered_replacedNames (hnames : ∀ name ∈ offeredNames c, name ≠ "") :
    Ordered (replacedNames c) where
  nodup := nodup_replacedNames
  nonempty := by
    intro n hn
    obtain ⟨name, hname, rfl⟩ := List.mem_map.mp ((mem_replacedNames n).mp hn)
    simpa using hnames name hname
  order := pairwise_replacedNames

/-! ## The text -/

/-- The loop over the replacements. -/
def rewriteText (c : ServerContext CapabilityConfig) (text : String) : String :=
  (buildAppResourceReplacements c).foldl (fun t r => splitJoin r.1 r.2 t) text

/-- Names that are not empty are replaced in sequence. -/
theorem foldl_splitJoin {mark : String} {replacements : List (String × String)}
    (h : ∀ r ∈ replacements, r.1 ≠ "" ∧ r.2 = r.1 ++ mark) (text : String) :
    (replacements.foldl (fun t r => splitJoin r.1 r.2 t) text).toList =
      sequential (replacements.map fun r => r.1.toList) mark.toList text.toList := by
  induction replacements generalizing text with
  | nil => rfl
  | cons r replacements ih =>
    obtain ⟨hne, hmark⟩ := h r List.mem_cons_self
    rw [List.foldl_cons, ih fun r' hr' => h r' (List.mem_cons_of_mem r hr'), hmark,
      splitJoin_eq_replace hne]
    rfl

theorem rewriteOnce_toList (text : String) : (rewriteOnce c text).toList =
    once (replacedNames c) (gatewayMark c).toList text.toList := by
  rw [rewriteOnce, String.toList_ofList]
  exact once_congr (fun n => (mem_replacedNames n).symm) text.toList

/-- An empty name comes last. -/
theorem replacements_of_empty (h : "" ∈ offeredNames c) :
    ∃ rs, buildAppResourceReplacements c = rs ++ [("", gatewayMark c)] ∧
      ∀ r ∈ rs, r.1 ≠ "" ∧ r.2 = r.1 ++ gatewayMark c := by
  have hmem : ("", gatewayMark c) ∈ buildAppResourceReplacements c :=
    mem_buildAppResourceReplacements.mpr ⟨h, by simp⟩
  obtain ⟨rs, rs', hsplit⟩ := List.append_of_mem hmem
  have hdistinct : (buildAppResourceReplacements c).Pairwise fun a b => a.1.toList ≠ b.1.toList :=
    List.pairwise_map.mp nodup_replacedNames
  have hsorted := pairwise_utf16Length (c := c)
  rw [hsplit] at hdistinct hsorted
  obtain ⟨_, hright, hleft⟩ := List.pairwise_append.mp hdistinct
  have hnil : rs' = [] := by
    cases rs' with
    | nil => rfl
    | cons r rs' =>
      have hle : utf16Length r.1 ≤ utf16Length "" :=
        (List.pairwise_cons.mp (List.pairwise_append.mp hsorted).2.1).1 r List.mem_cons_self
      have hne := (List.pairwise_cons.mp hright).1 r List.mem_cons_self
      have hlt := utf16Length_lt_of_infix (m := "") (n := r.1) List.nil_infix
        fun heq => hne (by rw [heq])
      omega
  refine ⟨rs, by rw [hsplit, hnil], ?_⟩
  intro r hr
  have hname := mem_buildAppResourceReplacements.mp
    (hsplit ▸ List.mem_append_left _ hr : r ∈ buildAppResourceReplacements c)
  refine ⟨?_, hname.2⟩
  intro heq
  exact hleft r hr ("", gatewayMark c) List.mem_cons_self (by rw [heq])

/-- An empty name is put between all characters. -/
theorem not_rewriteOnce_of_empty (h : "" ∈ offeredNames c) :
    ∃ text, rewriteText c text ≠ rewriteOnce c text := by
  obtain ⟨rs, hsplit, hrs⟩ := replacements_of_empty h
  have hlast : ∀ text, 2 ≤ (rs.foldl (fun t r => splitJoin r.1 r.2 t) text).toList.length →
      (rs.foldl (fun t r => splitJoin r.1 r.2 t) text).toList.length <
        (rewriteText c text).toList.length := by
    intro text htext
    have hlt := (length_intercalate_singletons (gatewayMark_ne_nil (c := c)) _).2 htext
    rw [rewriteText, hsplit, List.foldl_append]
    simpa [splitJoin] using hlt
  have hnames : ∀ n ∈ rs.map (fun r => r.1.toList), n ≠ [] := by
    intro n hn
    obtain ⟨r, hr, rfl⟩ := List.mem_map.mp hn
    simpa using (hrs r hr).1
  have hreplaced : replacedNames c = rs.map (fun r => r.1.toList) ++ [[]] := by
    simp [replacedNames, hsplit]
  cases rs with
  | nil =>
    refine ⟨"ab", ?_⟩
    intro heq
    have hlt := hlast "ab" (by decide)
    have honce : once (replacedNames c) (gatewayMark c).toList "ab".toList = "ab".toList := by
      apply once_eq_self
      intro n hn hne
      rw [hreplaced] at hn
      exact absurd (List.mem_singleton.mp hn) hne
    rw [heq, rewriteOnce_toList, honce] at hlt
    exact absurd hlt (Nat.lt_irrefl _)
  | cons r rs =>
    refine ⟨r.1, ?_⟩
    intro heq
    have hne : r.1.toList ≠ [] := hnames _ List.mem_cons_self
    have hmem : r.1.toList ∈ replacedNames c := by
      rw [hreplaced]
      exact List.mem_append_left _ List.mem_cons_self
    have hlongest : longestPrefix (r.1.toList ++ []) (replacedNames c) = some r.1.toList := by
      rw [List.append_nil]
      exact longestPrefix_unique hmem hne (List.prefix_refl _) fun _ _ hp => hp.length_le
    have honce : once (replacedNames c) (gatewayMark c).toList r.1.toList =
        r.1.toList ++ (gatewayMark c).toList := by
      have honce := @once_of_some _ _ _ (gatewayMark c).toList _ _ hlongest
      simpa using honce
    have hseq := (@length_sequential _ _ (gatewayMark c).toList _ hnames r.1.toList).2
      ⟨r.1.toList, List.mem_cons_self, List.infix_refl _⟩
    rw [← foldl_splitJoin hrs] at hseq
    have hpos := List.length_pos_of_ne_nil hne
    have hmark := List.length_pos_of_ne_nil (gatewayMark_ne_nil (c := c))
    have hlt := hlast r.1 (by omega)
    rw [heq, rewriteOnce_toList, honce, List.length_append] at hlt
    omega

/-- The loop replaces each reference once, in every text, exactly if the names are separate. -/
theorem rewriteText_eq_once_iff :
    (∀ text, rewriteText c text = rewriteOnce c text) ↔ SeparateNames c := by
  have hseq : (∀ name ∈ offeredNames c, name ≠ "") → ∀ text : String,
      (rewriteText c text).toList =
        sequential (replacedNames c) (gatewayMark c).toList text.toList := by
    intro hnames text
    apply foldl_splitJoin
    intro r hr
    have hname := mem_buildAppResourceReplacements.mp hr
    exact ⟨hnames r.1 hname.1, hname.2⟩
  constructor
  · intro hall
    have hnames : ∀ name ∈ offeredNames c, name ≠ "" := by
      intro name hname heq
      obtain ⟨text, htext⟩ := not_rewriteOnce_of_empty (heq ▸ hname)
      exact htext (hall text)
    refine ⟨hnames, ?_⟩
    apply (sequential_eq_once_iff (ordered_replacedNames hnames) gatewayMark_ne_nil).mp
    intro text
    have htext := congrArg String.toList (hall (String.ofList text))
    rwa [hseq hnames, rewriteOnce_toList, String.toList_ofList] at htext
  · intro h text
    apply String.toList_inj.mp
    rw [hseq h.nonempty, rewriteOnce_toList]
    exact (sequential_eq_once_iff (ordered_replacedNames h.nonempty) gatewayMark_ne_nil).mpr
      h.separate text.toList

end

/-! ## Results -/

/-- Whether a content is HTML. -/
def isHtml (mimeType : Option String) : Bool :=
  (mimeType.map fun m => "text/html".toList.isPrefixOf m.toList) == some true

/-- A result with its URIs in the names of the gateway, and each reference in HTML replaced once. -/
def rewrittenOnce (c : ServerContext CapabilityConfig) (result : ReadResourceResult) :
    ReadResourceResult :=
  { result with
    contents := result.contents.map fun content =>
      { content with
        uri := generateNewName c.id content.uri
        text := content.text.map fun text =>
          if isHtml content.mimeType then rewriteOnce c text else text } }

theorem rewriteAppResourceText_eq (c : ServerContext CapabilityConfig) (text : String)
    (mimeType : Option String) :
    rewriteAppResourceText text mimeType (buildAppResourceReplacements c) =
      if isHtml mimeType then rewriteText c text else text := by
  simp only [rewriteAppResourceText, isHtml, rewriteText, beq_iff_eq]

/-- The results of a server are rewritten once per reference if its names are separate, and for
every result only then. The two controllers rewrite alike. -/
theorem app_html_rewritten_once (m : ServerManager CapabilityConfig) (s : ClientSession)
    (serverID : String) :
    (∀ result, rewriteResourceResult m result serverID s.userId true =
      rewriteAppResourceResult m s result serverID) ∧
    ∀ c, m.getServerContext serverID (some s.userId) = some c →
      ((∀ result, rewriteAppResourceResult m s result serverID = rewrittenOnce c result) ↔
        SeparateNames c) := by
  refine ⟨fun result => rewriteResourceResult_eq m s result serverID, ?_⟩
  intro c hc
  rw [← rewriteText_eq_once_iff]
  constructor
  · intro hall text
    have hresult := hall ⟨[⟨"", some "text/html", some text, []⟩], []⟩
    have hhtml : isHtml (some "text/html") = true := by decide
    simp only [rewriteAppResourceResult, hc, rewrittenOnce, List.map_cons, List.map_nil,
      Option.map_some, rewriteAppResourceText_eq, hhtml, if_true, ReadResourceResult.mk.injEq,
      List.cons.injEq, ResourceContents.mk.injEq, Option.some.injEq, and_true, true_and] at hresult
    exact hresult
  · intro htext result
    simp only [rewriteAppResourceResult, hc, rewrittenOnce, rewriteAppResourceText_eq, htext]

/-- A server with one tool, `search`. -/
theorem app_html_rewritten_once_docs :
    rewriteAppResourceResult docsManager docsSession docsPage "docs" =
      rewrittenOnce docsContext docsPage := by
  have hseparate : SeparateNames docsContext := ⟨by decide, by decide +kernel⟩
  exact ((app_html_rewritten_once docsManager docsSession "docs").2 docsContext rfl).mpr hseparate
    docsPage

/-- A server with the tools `openApp` and `open`. -/
private def appContext : ServerContext CapabilityConfig :=
  { docsContext with lists := { docsContext.lists with
      tools := some [⟨"openApp", none, none, none, none⟩, ⟨"open", none, none, none, none⟩] } }

/-- The name `open` is found again in the gateway name of `openApp`. -/
theorem app_html_rewritten_twice :
    ¬∀ (m : ServerManager CapabilityConfig) (s : ClientSession) (serverID : String)
      (c : ServerContext CapabilityConfig),
      m.getServerContext serverID (some s.userId) = some c →
      ∀ result, rewriteAppResourceResult m s result serverID = rewrittenOnce c result := by
  intro h
  have hresult := h ⟨Dict.empty.set "docs" appContext, .empty⟩ docsSession "docs" appContext rfl
    ⟨[⟨"docs://readme", some "text/html", some "call openApp", []⟩], []⟩
  have htexts := congrArg (fun r => r.contents.map fun content => content.text) hresult
  have hcode : (rewriteAppResourceResult ⟨Dict.empty.set "docs" appContext, .empty⟩ docsSession
      ⟨[⟨"docs://readme", some "text/html", some "call openApp", []⟩], []⟩ "docs").contents.map
        (fun content => content.text) = [some "call open_-_1App_-_1"] := by
    decide +kernel
  have honce : (rewrittenOnce appContext
      ⟨[⟨"docs://readme", some "text/html", some "call openApp", []⟩], []⟩).contents.map
        (fun content => content.text) = [some "call openApp_-_1"] := by
    decide +kernel
  rw [hcode, honce] at htexts
  exact absurd htexts (by decide)

end PetaCore
