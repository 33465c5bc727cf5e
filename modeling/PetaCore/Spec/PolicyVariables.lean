import PetaCore.Core.PolicyConditions
import PetaCore.Spec.PolicyDsl

/-!
# What a policy variable stands for

The scope of a condition spreads the arguments of the caller under the extracted variables. A
variable stands for what its extractor yields, but when the extractor yields nothing, an argument of
the same name or an inherited property takes its place.

Key results:
- `lookup_extractVariables`: the variables that are set
- `readsExtractor_iff`: when an operand stands for what its extractor yields
- `caller_supplies_no_variable`: the same in terms of names, and two calls that yield the same
- `evaluate_first_match`: the evaluator with these conditions, when nothing throws
-/

namespace PetaCore

open PolicyValue JsRuntime

/-! ## Paths -/

namespace PolicyValue

theorem walk_append (obj : PolicyValue) (path path' : List String) :
    obj.walk (path ++ path') = (obj.walk path).walk path' :=
  List.foldl_append

theorem walk_cons (obj : PolicyValue) (segment : String) (path : List String) :
    obj.walk (segment :: path) = ((obj.property? segment).getD undefined).walk path := rfl

/-- Nothing is found in a value that is no object. -/
theorem walk_undefined (path : List String) : undefined.walk path = undefined := by
  induction path with
  | nil => rfl
  | cons segment path ih => exact ih

theorem walk_primitive (p : JsPrimitive) (segment : String) (path : List String) :
    (primitive p).walk (segment :: path) = undefined := walk_undefined path

theorem segments_of_not_mem {path : String} (h : '.' ∉ path.toList) : segments path = [path] := by
  rw [segments, List.splitOn_eq_singleton h]
  simp

theorem segments_append (path path' : String) :
    segments (path ++ "." ++ path') = segments path ++ segments path' := by
  have htext : (path ++ "." ++ path').toList = path.toList ++ '.' :: path'.toList := by simp
  rw [segments, htext, List.splitOn_append_cons_self, List.map_append]
  rfl

theorem segments_ne_nil (path : String) : segments path ≠ [] := by
  rw [segments, ne_eq, List.map_eq_nil_iff]
  exact List.splitOn_ne_nil '.' path.toList

/-- A value of parsed JSON is defined. -/
theorem ofJson_ne_undefined (place : ObjectPlace) (j : Json) : ofJson place j ≠ undefined := by
  cases j <;> simp [ofJson]

theorem objectProperty?_ne_undefined {prototype : PolicyValue} (h : prototype ≠ undefined)
    (segment : String) : objectProperty? prototype segment ≠ some undefined := by
  unfold objectProperty?
  split
  · simpa using h
  · split
    · simp
    · split <;> simp

/-- The property of an object. -/
theorem property?_object (place : ObjectPlace) (members : List (String × Json))
    (segment : String) : (object place members).property? segment =
      match members.lookup segment with
      | some value => some (ofJson (place.member segment) value)
      | none => objectProperty? objectPrototype segment := rfl

/-- A property of an object that is there is defined. -/
theorem getD_property?_object (place : ObjectPlace) (members : List (String × Json))
    (segment : String) : ((object place members).property? segment).getD undefined = undefined ↔
      (object place members).property? segment = none := by
  have hdefined : (object place members).property? segment ≠ some undefined := by
    rw [property?_object]
    cases members.lookup segment with
    | none => exact objectProperty?_ne_undefined (fun h => by cases h) segment
    | some value => simpa using ofJson_ne_undefined _ value
  cases hproperty : (object place members).property? segment with
  | none => simp
  | some value =>
    rw [hproperty] at hdefined
    simpa using hdefined

end PolicyValue

/-! ## The variables that are set -/

section

variable {js : JsRuntime} {args : Json}

theorem lookup_setVar (vars : List (String × JsPrimitive)) (name name' : String)
    (value : JsPrimitive) : (setVar vars name value).lookup name' =
      if name' = name ∧ name ≠ "__proto__" then some value else vars.lookup name' := by
  unfold setVar
  by_cases hproto : name = "__proto__"
  · simp [hproto]
  · rw [if_neg hproto, List.lookup_cons]
    by_cases hname : name' = name
    · simp [hname, hproto]
    · have hbeq : (name' == name) = false := by simpa using hname
      simp [hname, hbeq]

variable {extractors : List (String × Extractor)}

variable {vars vars' : List (String × JsPrimitive)} {name : String}

/-- One turn of the loop. -/
theorem extractFrom_cons {e : Extractor}
    (h : js.extractFrom args vars ((name, e) :: extractors) = some vars') :
    ∃ y, js.extractValue e args = some y ∧
      js.extractFrom args (y.elim vars (setVar vars name)) extractors = some vars' := by
  rw [extractFrom] at h
  obtain ⟨y, hy, h⟩ := Option.bind_eq_some_iff.mp h
  refine ⟨y, hy, ?_⟩
  cases y with
  | none | some _ => exact h

theorem lookup_extractFrom_of_not_mem (h : js.extractFrom args vars extractors = some vars')
    (hname : name ∉ extractors.map (·.1) ∨ name = "__proto__") :
    vars'.lookup name = vars.lookup name := by
  induction extractors generalizing vars with
  | nil => rw [Option.some.inj h]
  | cons x extractors ih =>
    obtain ⟨name', e⟩ := x
    obtain ⟨y, _, hrest⟩ := extractFrom_cons h
    have hname' : name ∉ extractors.map (·.1) ∨ name = "__proto__" :=
      hname.imp_left fun hnot hmem => hnot (List.mem_cons_of_mem name' hmem)
    rw [ih hrest hname']
    cases y with
    | none => rfl
    | some value =>
      show (setVar vars name' value).lookup name = _
      rw [lookup_setVar, if_neg]
      intro heq
      obtain ⟨rfl, hproto⟩ := heq
      cases hname with
      | inl hnot => exact hnot List.mem_cons_self
      | inr hname => exact hproto hname

theorem lookup_extractFrom (h : js.extractFrom args vars extractors = some vars')
    (hnodup : (extractors.map (·.1)).Nodup) {e : Extractor} (he : (name, e) ∈ extractors) :
    ∃ y, js.extractValue e args = some y ∧
      (name ≠ "__proto__" → vars.lookup name = none → vars'.lookup name = y) := by
  induction extractors generalizing vars with
  | nil => cases he
  | cons x extractors ih =>
    obtain ⟨name', e'⟩ := x
    obtain ⟨y, hy, hrest⟩ := extractFrom_cons h
    obtain ⟨hnot, hnodup⟩ := List.nodup_cons.mp hnodup
    cases List.mem_cons.mp he with
    | inl heq =>
      obtain ⟨rfl, rfl⟩ := Prod.mk.inj heq
      refine ⟨y, hy, ?_⟩
      intro hproto hnone
      rw [lookup_extractFrom_of_not_mem hrest (.inl hnot)]
      cases y with
      | none => exact hnone
      | some value =>
        show (setVar vars name value).lookup name = _
        rw [lookup_setVar, if_pos ⟨rfl, hproto⟩]
    | inr hmem =>
      obtain ⟨y', hy', hlookup⟩ := ih hrest hnodup hmem
      refine ⟨y', hy', ?_⟩
      intro hproto hnone
      apply hlookup hproto
      cases y with
      | none => exact hnone
      | some value =>
        show (setVar vars name' value).lookup name = none
        rw [lookup_setVar, if_neg]
        · exact hnone
        · intro heq
          rw [heq.1] at hmem
          exact hnot (List.mem_map.mpr ⟨(name', e), hmem, rfl⟩)

end

/-- What the extractor of a name yields, when the name is declared and can be set. -/
def yieldOf (js : JsRuntime) (extractors : List (String × Extractor)) (args : Json)
    (name : String) : Option JsPrimitive :=
  if name = "__proto__" then none
  else (extractors.lookup name).bind fun e => (js.extractValue e args).join

/-- A call whose variables are extracted: the names of the extractors are distinct, as those of an
object are, and nothing throws. -/
structure Extraction (js : JsRuntime) (extractors : List (String × Extractor))
    (members : List (String × Json)) (vars : List (String × JsPrimitive)) : Prop where
  distinct : (extractors.map (·.1)).Nodup
  extracted : js.extractVariables extractors (.obj members) = some vars

section

variable {js : JsRuntime} {extractors : List (String × Extractor)}
  {members : List (String × Json)} {vars : List (String × JsPrimitive)}

/-- A variable is set to what its extractor yields. -/
theorem Extraction.lookup_eq (h : Extraction js extractors members vars) (name : String) :
    vars.lookup name = yieldOf js extractors (.obj members) name := by
  unfold yieldOf
  by_cases hproto : name = "__proto__"
  · rw [if_pos hproto, lookup_extractFrom_of_not_mem h.extracted (.inr hproto)]
    rfl
  rw [if_neg hproto]
  cases hlookup : extractors.lookup name with
  | none =>
    have hnot : name ∉ extractors.map (·.1) := by
      intro hmem
      obtain ⟨x, hx, rfl⟩ := List.mem_map.mp hmem
      have hne := List.lookup_eq_none_iff.mp hlookup x hx
      simp at hne
    rw [lookup_extractFrom_of_not_mem h.extracted (.inl hnot)]
    rfl
  | some e =>
    obtain ⟨xs, ys, rfl, _⟩ := List.lookup_eq_some_iff.mp hlookup
    obtain ⟨y, hy, hset⟩ := lookup_extractFrom h.extracted h.distinct
      (List.mem_append_right xs List.mem_cons_self)
    rw [hset hproto rfl, Option.bind_some, hy]
    rfl

variable {name : String} {e : Extractor}

/-- What a declared extractor yields. -/
theorem Extraction.extractValue_eq (h : Extraction js extractors members vars)
    (he : (name, e) ∈ extractors) :
    ∃ y, js.extractValue e (.obj members) = some y := by
  obtain ⟨y, hy, _⟩ := lookup_extractFrom h.extracted h.distinct he
  exact ⟨y, hy⟩

variable {y : Option JsPrimitive}

theorem yieldOf_eq (hdistinct : (extractors.map (·.1)).Nodup)
    (he : (name, e) ∈ extractors) (hproto : name ≠ "__proto__") {args : Json}
    (hy : js.extractValue e args = some y) :
    yieldOf js extractors args name = y := by
  have hlookup : extractors.lookup name = some e := by
    obtain ⟨xs, ys, rfl⟩ := List.append_of_mem he
    refine List.lookup_eq_some_iff.mpr ⟨xs, ys, rfl, ?_⟩
    intro x hx
    rw [List.map_append, List.map_cons] at hdistinct
    have hne := (List.nodup_append.mp hdistinct).2.2 x.1 (List.mem_map_of_mem hx) name
      List.mem_cons_self
    simpa using fun heq => hne heq.symm
  rw [yieldOf, if_neg hproto, hlookup, Option.bind_some, hy]
  rfl

/-! ## Operands -/

/-- What a variable is to stand for. -/
def valueOf : Option JsPrimitive → PolicyValue
  | none => .undefined
  | some value => .primitive value

/-- The operands of a name stand for a value and for what is found within it. -/
def Reads (scope : PolicyValue) (name : String) (value : PolicyValue) : Prop :=
  resolveOperand (.str ("$" ++ name)) scope = value ∧
    ∀ path, resolveOperand (.str ("$" ++ name ++ "." ++ path)) scope = value.walk (segments path)

theorem resolveOperand_dollar (path : String) (scope : PolicyValue) :
    resolveOperand (.str ("$" ++ path)) scope = scope.extractByPath path := by
  have htext : ("$" ++ path).toList = '$' :: path.toList := by simp
  simp only [resolveOperand, htext, String.ofList_toList]

/-- The operands of a name are read along its segments. -/
theorem reads_iff {scope : PolicyValue} (hname : name ≠ "") {value : PolicyValue} :
    Reads scope name value ↔ scope.walk (segments name) = value := by
  have hself : resolveOperand (.str ("$" ++ name)) scope = scope.walk (segments name) := by
    rw [resolveOperand_dollar, extractByPath, if_neg hname]
  constructor
  · intro h
    exact hself ▸ h.1
  · intro h
    refine ⟨hself.trans h, ?_⟩
    intro path
    have hne : name ++ "." ++ path ≠ "" := by
      intro heq
      have hlen := congrArg String.length heq
      simp at hlen
    have htext : "$" ++ name ++ "." ++ path = "$" ++ (name ++ "." ++ path) := by
      simp only [String.append_assoc]
    rw [htext, resolveOperand_dollar, extractByPath, if_neg hne, segments_append, walk_append, h]

/-- The value of the arguments themselves. -/
def argsValue (members : List (String × Json)) : PolicyValue := ofJson (.args []) (.obj members)

/-- The first segment of a name in the scope. -/
theorem property?_scope {segment : String} (hargs : segment ≠ "args") :
    (PolicyValue.scope (.obj members) vars).property? segment =
      match vars.lookup segment with
      | some value => some (.primitive value)
      | none => (argsValue members).property? segment := by
  rw [PolicyValue.property?, if_neg hargs]
  cases vars.lookup segment with
  | some _ | none => rfl

theorem property?_scope_args :
    (PolicyValue.scope (.obj members) vars).property? "args" = some (argsValue members) := rfl

/-! ## Names -/

/-- A name of one segment that neither the scope nor an object has a meaning of its own for. -/
structure IsSimple (name : String) : Prop where
  ne_empty : name ≠ ""
  no_dot : '.' ∉ name.toList
  ne_args : name ≠ "args"
  ne_proto : name ≠ "__proto__"

/-- When a name stands for what its extractor yields. The first segment of the name is `args`, or a
variable that is set, or else looked up in the arguments. -/
def StandsFor (js : JsRuntime) (extractors : List (String × Extractor))
    (members : List (String × Json)) (name : String) (y : Option JsPrimitive) : Prop :=
  name ≠ "" ∧
    match segments name with
    | [] => False
    | segment :: path =>
      if segment = "args" then (argsValue members).walk path = valueOf y
      else match yieldOf js extractors (.obj members) segment with
        | some _ => path = [] ∨ y = none
        | none => (argsValue members).walk (segment :: path) = valueOf y

/-- A name of one segment is this segment. -/
theorem eq_of_segments {segment : String} (h : segments name = [segment]) :
    name = segment := by
  by_cases hdot : '.' ∈ name.toList
  · obtain ⟨a, b, hab⟩ := List.append_of_mem hdot
    have hname : name = String.ofList a ++ "." ++ String.ofList b := by
      rw [← String.ofList_toList (s := name), hab]
      simp [← String.toList_inj]
    rw [hname, segments_append] at h
    have hlen := congrArg List.length h
    rw [List.length_append] at hlen
    have ha := List.length_pos_of_ne_nil (segments_ne_nil (String.ofList a))
    have hb := List.length_pos_of_ne_nil (segments_ne_nil (String.ofList b))
    simp only [List.length_singleton] at hlen
    omega
  · rw [segments_of_not_mem hdot] at h
    exact (List.cons.inj h).1

theorem readsExtractor_iff (h : Extraction js extractors members vars) (he : (name, e) ∈ extractors)
    (hy : js.extractValue e (.obj members) = some y) :
    Reads (.scope (.obj members) vars) name (valueOf y) ↔ StandsFor js extractors members name y := by
  by_cases hname : name = ""
  · -- `$` is the scope itself
    have hself : resolveOperand (.str ("$" ++ name)) (.scope (.obj members) vars) =
        .scope (.obj members) vars := by
      rw [resolveOperand_dollar, hname]
      rfl
    constructor
    · intro hreads
      have hscope := hself.symm.trans hreads.1
      cases y <;> cases hscope
    · intro hstands
      exact absurd hname hstands.1
  rw [reads_iff hname, StandsFor, and_iff_right hname]
  cases hsegments : segments name with
  | nil => exact absurd hsegments (segments_ne_nil name)
  | cons segment path =>
    show _ ↔ if segment = "args" then _ else _
    by_cases hargs : segment = "args"
    · rw [if_pos hargs, walk_cons, hargs, property?_scope_args, Option.getD_some]
    rw [if_neg hargs, walk_cons, property?_scope hargs, h.lookup_eq segment]
    cases hyield : yieldOf js extractors (.obj members) segment with
    | none => rfl
    | some value =>
      cases path with
      | nil =>
        -- the segment is the name, and its variable is set
        obtain rfl := eq_of_segments hsegments
        have hproto : name ≠ "__proto__" := by
          intro hproto
          rw [yieldOf, if_pos hproto] at hyield
          cases hyield
        have hyv : y = some value := (yieldOf_eq h.distinct he hproto hy).symm.trans hyield
        simp [hyv, valueOf, walk]
      | cons segment' path =>
        rw [Option.getD_some, walk_primitive]
        cases y with
        | none | some _ => simp [valueOf]

/-- A simple name stands for what is yielded, or for nothing when the arguments have no property of
that name. -/
theorem standsFor_of_isSimple (hdistinct : (extractors.map (·.1)).Nodup)
    (hsimple : IsSimple name) (he : (name, e) ∈ extractors)
    (hy : js.extractValue e (.obj members) = some y) :
    StandsFor js extractors members name y ↔
      y ≠ none ∨ (argsValue members).property? name = none := by
  have hyield := yieldOf_eq hdistinct he hsimple.ne_proto hy
  rw [StandsFor, and_iff_right hsimple.ne_empty, segments_of_not_mem hsimple.no_dot]
  show (if name = "args" then _ else _) ↔ _
  rw [if_neg hsimple.ne_args, hyield]
  cases y with
  | some value => simp
  | none =>
    show (argsValue members).walk [name] = .undefined ↔ _
    have hundefined := getD_property?_object (.args []) members name
    simp only [ne_eq, not_true_eq_false, false_or]
    exact hundefined

/-! ## Two calls -/

/-- Operands that stand for the same in two calls: literals, variables that stand for what their
extractor yields, and what the two calls agree on in their arguments. -/
inductive AgreedOperand (js : JsRuntime) (extractors : List (String × Extractor))
    (members members' : List (String × Json)) : Json → Prop
  | literal {operand : Json} (h : ∀ path, operand ≠ .str ("$" ++ path)) :
      AgreedOperand js extractors members members' operand
  | variable {name : String} {e : Extractor} {y : Option JsPrimitive}
      (declared : (name, e) ∈ extractors) (yields : js.extractValue e (.obj members) = some y)
      (stands : StandsFor js extractors members name y)
      (stands' : StandsFor js extractors members' name y) {operand : String}
      (h : operand = "$" ++ name ∨ ∃ path, operand = "$" ++ name ++ "." ++ path) :
      AgreedOperand js extractors members members' (.str operand)
  | args (h : argsValue members = argsValue members') :
      AgreedOperand js extractors members members' (.str "$args")
  | argsPath {path : String}
      (h : (argsValue members).walk (segments path) = (argsValue members').walk (segments path)) :
      AgreedOperand js extractors members members' (.str ("$args." ++ path))

theorem resolveOperand_literal {operand : Json} (h : ∀ path, operand ≠ .str ("$" ++ path))
    (scope scope' : PolicyValue) :
    resolveOperand operand scope = resolveOperand operand scope' := by
  cases operand with
  | str s =>
    simp only [resolveOperand]
    split
    · rename_i path hpath
      have hs : s = "$" ++ String.ofList path := by
        rw [← String.toList_inj, hpath]
        simp
      exact absurd (congrArg Json.str hs) (h _)
    · rfl
  | _ => rfl

theorem resolveOperand_args (path : String) :
    resolveOperand (.str ("$args." ++ path)) (.scope (.obj members) vars) =
      (argsValue members).walk (segments path) := by
  have htext : "$args." ++ path = "$" ++ ("args" ++ "." ++ path) := by
    rw [← String.toList_inj]
    simp
  have hne : "args" ++ "." ++ path ≠ "" := by
    intro heq
    have hlen := congrArg String.length heq
    simp at hlen
  have hargs : segments "args" = ["args"] := segments_of_not_mem (by decide)
  rw [htext, resolveOperand_dollar, extractByPath, if_neg hne, segments_append, hargs, walk_append]
  rfl

variable {members' : List (String × Json)} {vars' : List (String × JsPrimitive)}

theorem AgreedOperand.resolve_eq (h : Extraction js extractors members vars)
    (h' : Extraction js extractors members' vars')
    (hyields : ∀ name e, (name, e) ∈ extractors →
      js.extractValue e (.obj members) = js.extractValue e (.obj members'))
    {operand : Json} (hoperand : AgreedOperand js extractors members members' operand) :
    resolveOperand operand (.scope (.obj members) vars) =
      resolveOperand operand (.scope (.obj members') vars') := by
  cases hoperand with
  | literal hliteral => exact resolveOperand_literal hliteral _ _
  | «variable» declared yields stands stands' hform =>
    have hreads := (readsExtractor_iff h declared yields).mpr stands
    have hreads' := (readsExtractor_iff h' declared
      ((hyields _ _ declared).symm.trans yields)).mpr stands'
    cases hform with
    | inl hform => rw [hform, hreads.1, hreads'.1]
    | inr hform =>
      obtain ⟨path, rfl⟩ := hform
      rw [hreads.2, hreads'.2]
  | args hargs => exact hargs
  | argsPath hargs => rw [resolveOperand_args, resolveOperand_args, hargs]

end

/-- A caller supplies no variable whose name stands for what its extractor yields, and with such
variables two calls that yield the same and agree on what is referenced of their arguments are the
same to a condition. -/
theorem caller_supplies_no_variable (js : JsRuntime) (extractors : List (String × Extractor)) :
    (∀ members vars, Extraction js extractors members vars →
      ∀ name e, (name, e) ∈ extractors → ∃ y, js.extractValue e (.obj members) = some y ∧
        (Reads (.scope (.obj members) vars) name (valueOf y) ↔
          StandsFor js extractors members name y) ∧
        (IsSimple name → (StandsFor js extractors members name y ↔
          y ≠ none ∨ (argsValue members).property? name = none))) ∧
    ∀ members members' vars vars', Extraction js extractors members vars →
      Extraction js extractors members' vars' →
      (∀ name e, (name, e) ∈ extractors →
        js.extractValue e (.obj members) = js.extractValue e (.obj members')) →
      ∀ c : Condition, AgreedOperand js extractors members members' (.str c.left) →
        AgreedOperand js extractors members members' c.right →
        js.testCondition (.obj members) vars c = js.testCondition (.obj members') vars' c := by
  constructor
  · intro members vars h name e he
    obtain ⟨y, hy⟩ := h.extractValue_eq he
    exact ⟨y, hy, readsExtractor_iff h he hy, fun hs => standsFor_of_isSimple h.distinct hs he hy⟩
  · intro members members' vars vars' h h' hyields c hleft hright
    rw [testCondition, testCondition, hleft.resolve_eq h h' hyields, hright.resolve_eq h h' hyields]

/-- Strings and numbers that are strings and numbers already. -/
private def plainRuntime : JsRuntime where
  string
    | .primitive (.string s) => some s
    | _ => none
  number
    | .primitive (.number n) => some n
    | _ => none
  parseFloat _ := .nan
  hostname _ := none
  regExpTest _ _ := none

/-- A rule with the variable `confirmed`. -/
private def confirmed : List (String × Extractor) := [("confirmed", ⟨"options.confirm", .boolean⟩)]

theorem caller_supplies_no_variable_confirmed :
    resolveOperand (.str "$confirmed") (.scope
        (.obj [("confirmed", .str "yes"), ("options", .obj [("confirm", .bool false)])])
        [("confirmed", .bool false)]) =
      .primitive (.bool false) := by
  have h : Extraction plainRuntime confirmed
      [("confirmed", .str "yes"), ("options", .obj [("confirm", .bool false)])]
      [("confirmed", .bool false)] := ⟨by decide, by decide +kernel⟩
  obtain ⟨y, hy, hreads, hsimple⟩ := (caller_supplies_no_variable plainRuntime confirmed).1 _ _ h
    "confirmed" ⟨"options.confirm", .boolean⟩ List.mem_cons_self
  have hvalue : plainRuntime.extractValue ⟨"options.confirm", .boolean⟩
      (.obj [("confirmed", .str "yes"), ("options", .obj [("confirm", .bool false)])]) =
        some (some (.bool false)) := by
    decide +kernel
  obtain rfl := Option.some.inj (hy.symm.trans hvalue)
  have hstands := (hsimple ⟨by decide, by decide, by decide, by decide⟩).mpr (.inl (by simp))
  exact (hreads.mpr hstands).1

/-- The argument `confirmed` stands for the variable when the extractor yields nothing. -/
theorem caller_supplies_variable :
    ¬∀ (js : JsRuntime) (extractors : List (String × Extractor)),
      (∀ members vars, Extraction js extractors members vars →
        ∀ name e, (name, e) ∈ extractors → ∃ y, js.extractValue e (.obj members) = some y ∧
          Reads (.scope (.obj members) vars) name (valueOf y)) := by
  intro h
  have hextract : Extraction plainRuntime confirmed [("confirmed", .bool true)] [] :=
    ⟨by decide, by decide +kernel⟩
  obtain ⟨y, hy, hreads⟩ := h plainRuntime confirmed _ _ hextract "confirmed"
    ⟨"options.confirm", .boolean⟩ List.mem_cons_self
  have hnone : plainRuntime.extractValue ⟨"options.confirm", .boolean⟩
      (.obj [("confirmed", .bool true)]) = some none := by
    decide +kernel
  obtain rfl := Option.some.inj (hy.symm.trans hnone)
  have hvalue : resolveOperand (.str ("$" ++ "confirmed"))
      (.scope (.obj [("confirmed", .bool true)]) []) = .primitive (.bool true) := by
    rw [resolveOperand_dollar]
    rfl
  exact absurd (hvalue.symm.trans hreads.1) (by simp [valueOf])

/-! ## The evaluator -/

namespace JsRuntime

variable {js : JsRuntime} {ctx : PolicyEvaluationContext}

theorem all_conditionHolds {extract : List (String × Extractor)} {args : Json}
    {vars : List (String × JsPrimitive)} (h : js.extractVariables extract args = some vars)
    {cs : List Condition} {b : Bool} (hpass : js.allConditionsPass args vars cs = some b) :
    (cs.all fun c => js.dslRuntime.conditionHolds extract args c) = b := by
  induction cs with
  | nil => exact Option.some.inj hpass
  | cons c cs ih =>
    rw [allConditionsPass] at hpass
    obtain ⟨b', hc, hpass⟩ := Option.bind_eq_some_iff.mp hpass
    have hholds : js.dslRuntime.conditionHolds extract args c = b' := by
      simp [dslRuntime, h, hc]
    rw [List.all_cons, hholds]
    cases b' with
    | false => exact Option.some.inj hpass
    | true => exact ih hpass

/-- What the loop returns is what the first rule that applies says. -/
theorem evaluateRules_eq {rules : List PolicyRule} {result : Option PolicyEvaluationResult}
    (h : js.evaluateRules ctx rules = some result) :
    ((rules.find? fun r => r.applies js.dslRuntime ctx).map fun r =>
      (⟨r.effect.decision, r.id, r.effect.reason⟩ : PolicyEvaluationResult)) = result := by
  induction rules with
  | nil => exact Option.some.inj h
  | cons rule rules ih =>
    rw [evaluateRules] at h
    rw [List.find?_cons]
    cases hmatch : rule.matchesRule js.dslRuntime ctx with
    | false =>
      rw [hmatch] at h
      rw [PolicyRule.applies, hmatch, Bool.false_and]
      exact ih h
    | true =>
      rw [hmatch] at h
      obtain ⟨vars, hvars, h⟩ := Option.bind_eq_some_iff.mp h
      obtain ⟨b, hpass, h⟩ := Option.bind_eq_some_iff.mp h
      rw [PolicyRule.applies, hmatch, Bool.true_and, all_conditionHolds hvars hpass]
      cases b with
      | false => exact ih h
      | true => exact Option.some.inj h

/-- The evaluator with its extractors and conditions decides by first match, when nothing throws. -/
theorem evaluate_first_match {dsl : PolicyDsl} {result : Option PolicyEvaluationResult}
    (h : js.evaluate dsl ctx = some result) :
    (∀ answer, result = some answer ↔ ∃ r, PolicyRule.IsFirstRule js.dslRuntime ctx dsl.rules r ∧
        answer = PolicyDsl.resultOf r) ∧
      (result = none ↔ ∀ r ∈ dsl.rules, r.applies js.dslRuntime ctx = false) := by
  obtain rfl : dsl.evaluate js.dslRuntime ctx = result := evaluateRules_eq h
  exact ⟨fun _ => PolicyDsl.evaluate_eq_some, PolicyDsl.evaluate_eq_none⟩

theorem evaluate_first_match_confirmed : ∃ r, PolicyRule.IsFirstRule plainRuntime.dslRuntime
    ⟨none, "purge", .obj [("options", .obj [("confirm", .bool true)])]⟩
    [⟨"r1", none, ⟨none, none⟩, confirmed, [⟨"$confirmed", .eq, .bool true⟩], ⟨.allow, none⟩⟩] r ∧
      ⟨.allow, "r1", none⟩ = PolicyDsl.resultOf r :=
  ((evaluate_first_match (by decide +kernel : plainRuntime.evaluate ⟨_⟩ _ = some _)).1 _).mp rfl

end JsRuntime

end PetaCore
