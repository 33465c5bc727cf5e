import PetaCore.Core.MirroredHeaders
import PetaCore.ForStd.JsonText
import PetaCore.Spec.HeaderAnnotations

/-!
# Mirrored headers round trip

A header value is decoded to the text it was encoded from, unless this is empty: the empty text is
sent in a base64 frame with nothing in it, which the decoder refuses. So the gateway as server
accepts the headers of the gateway as client unless some annotated argument is empty, or is missing
under the name of something that objects inherit, which the server takes for an argument that is
neither a string, an integer nor a boolean.

Key results:
- `decodeHeaderMirrorValue_encodeHeaderValue`: which values are decoded to what they were
- `mirrored_headers_round_trip`: which calls are accepted
-/

namespace PetaCore

open ModernHttpDownstreamCodec ModernMcpController

/-! ## Header values -/

theorem framedText?_framed (text : List Char) :
    framedText? ("=?base64?".toList ++ text ++ "?=".toList) = some text := by
  have hprefix : ("=?base64?".toList ++ (text ++ "?=".toList)).dropPrefix? "=?base64?".toList =
      some (text ++ "?=".toList) := List.dropPrefix?_append_of_beq _ (by simp)
  have hsuffix : (text ++ "?=".toList).dropSuffix? "?=".toList = some text :=
    List.dropSuffix?_eq_some_iff.mpr ⟨"?=".toList, rfl, by simp⟩
  rw [framedText?, List.append_assoc, hprefix]
  exact hsuffix

theorem isDigit_ne_pad {c : Char} (h : Base64.isDigit c = true) : c ≠ '=' := by
  intro heq
  rw [heq] at h
  exact absurd h (by decide)

/-- The text of the frame is one that the decoder's pattern accepts. -/
theorem isBase64Text_encode (bytes : List UInt8) : isBase64Text (Base64.encode bytes) = true := by
  obtain ⟨digits, n, heq, hn, hdigits⟩ := Base64.encode_eq_append bytes
  rw [heq, isBase64Text, List.dropWhile_append_of_pos hdigits]
  have hcases : n = 0 ∨ n = 1 ∨ n = 2 := by omega
  rcases hcases with rfl | rfl | rfl <;> decide

theorem hasInnerPad_cons {c : Char} (hc : c ≠ '=') (text : List Char) :
    hasInnerPad (c :: text) = hasInnerPad text := by
  cases text with
  | nil => rfl
  | cons d text => simp [hasInnerPad, hc]

theorem hasInnerPad_append {digits : List Char} (n : Nat)
    (h : ∀ c ∈ digits, Base64.isDigit c = true) :
    hasInnerPad (digits ++ List.replicate n '=') = false := by
  induction digits with
  | nil =>
    rw [List.nil_append, hasInnerPad, List.any_eq_false]
    intro p hp
    have hsnd := List.mem_of_mem_tail (List.of_mem_zip hp).2
    simp [List.eq_of_mem_replicate hsnd]
  | cons c digits ih =>
    rw [List.cons_append, hasInnerPad_cons (isDigit_ne_pad (h c List.mem_cons_self))]
    exact ih fun d hd => h d (List.mem_cons_of_mem _ hd)

theorem hasInnerPad_encode (bytes : List UInt8) : hasInnerPad (Base64.encode bytes) = false := by
  obtain ⟨digits, n, heq, -, hdigits⟩ := Base64.encode_eq_append bytes
  rw [heq]
  exact hasInnerPad_append n hdigits

theorem decodeHeaderMirrorValue_framed (value : String) :
    decodeHeaderMirrorValue (String.ofList
      ("=?base64?".toList ++ Base64.encode (Utf8.encode value.toList) ++ "?=".toList)) =
      if value = "" then
        .error ⟨400, ModernErrorCodes.headerMismatch, "Invalid base64 Mcp-Param header value"⟩
      else .ok value := by
  have hempty : (Base64.encode (Utf8.encode value.toList)).length = 0 ↔ value = "" := by
    rw [List.length_eq_zero_iff, Base64.encode_eq_nil, Utf8.encode_eq_nil]
    exact String.toList_eq_nil_iff
  rw [decodeHeaderMirrorValue, String.toList_ofList, framedText?_framed,
    Option.filter_some_pos (isBase64Text_encode _)]
  simp only [Base64.length_encode, hasInnerPad_encode, Base64.decode_encode, Utf8.decode_encode,
    String.ofList_toList]
  simp [hempty]

/-- A header value is decoded to what it was unless this is empty. -/
theorem decodeHeaderMirrorValue_encodeHeaderValue (value : String) :
    decodeHeaderMirrorValue (encodeHeaderValue value) = .ok value ↔ value ≠ "" := by
  simp only [encodeHeaderValue]
  split
  · next hplain =>
    -- a plain value is no frame, and it is not empty
    simp only [Bool.and_eq_true, Option.isNone_iff_eq_none] at hplain
    obtain ⟨⟨⟨hne, -⟩, -⟩, hframe⟩ := hplain
    have hvalue : value ≠ "" := by
      intro h
      simp [h] at hne
    simp [decodeHeaderMirrorValue, hframe, hvalue]
  · rw [decodeHeaderMirrorValue_framed]
    split
    · next hvalue => simp [hvalue]
    · next hvalue => simp [hvalue]

/-! ## Reading arguments -/

/-- The value at a path, read from the members that objects have themselves. -/
def valueAt : List String → Json → Option Json
  | [], value => some value
  | key :: path, .obj members => (members.lookup key).bind (valueAt path)
  | _ :: _, _ => none

/-- Whether a path leads to something that an object inherits: a method of `Object.prototype`, this
    object itself, or one of its methods. -/
def inheritedAt : List String → Json → Bool
  | [], _ => false
  | key :: path, .obj members =>
    match members.lookup key with
    | some value => inheritedAt path value
    | none =>
      match path with
      | [] => key = "__proto__" || objectMethods.contains key
      | [key'] => key = "__proto__" && objectMethods.contains key'
      | _ => false
  | _ :: _, _ => false

theorem foldl_readSegment (path : List String) (value : JsValue) :
    path.foldl readSegment value = getArgumentAtPath value path := by
  induction path generalizing value with
  | nil => rfl
  | cons segment path ih =>
    rw [List.foldl_cons, ih, getArgumentAtPath, readSegment]
    cases hobj : value.isJsonObject with
    | true => rfl
    | false =>
      show getArgumentAtPath .undefined path = .undefined
      cases path <;> rfl

variable {path : List String}

theorem getArgumentAtPath_of_not_object {value : JsValue} (h : value.isJsonObject = false)
    (hpath : path ≠ []) : getArgumentAtPath value path = .undefined := by
  cases path with
  | nil => exact absurd rfl hpath
  | cons segment path => rw [getArgumentAtPath, h]; rfl

variable {args : Json}

theorem getArgumentAtPath_of_valueAt {value : Json}
    (h : valueAt path args = some value) : getArgumentAtPath (.json args) path = .json value := by
  induction path generalizing args with
  | nil => rw [getArgumentAtPath, Option.some.inj h]
  | cons key path ih =>
    cases args with
    | obj members =>
      obtain ⟨next, hnext, hvalue⟩ := Option.bind_eq_some_iff.mp h
      have hget : (JsValue.json (.obj members)).get key = .json next := by
        simp [JsValue.get, hnext]
      rw [getArgumentAtPath, hget]
      exact ih hvalue
    | null | bool _ | num _ | str _ | arr _ => cases h

theorem inheritedAt_of_valueAt {value : Json}
    (h : valueAt path args = some value) : inheritedAt path args = false := by
  induction path generalizing args with
  | nil => rfl
  | cons key path ih =>
    cases args with
    | obj members =>
      obtain ⟨next, hnext, hvalue⟩ := Option.bind_eq_some_iff.mp h
      simp only [inheritedAt, hnext]
      exact ih hvalue
    | null | bool _ | num _ | str _ | arr _ => cases h

/-- What is read from the prototype on. -/
theorem getArgumentAtPath_inherited (key : String) (path : List String) :
    let value : JsValue :=
      if key = "__proto__" then .objectPrototype
      else if objectMethods.contains key then .method
      else .undefined
    (getArgumentAtPath value path).isMissing =
        !(match path with
          | [] => key = "__proto__" || objectMethods.contains key
          | [key'] => key = "__proto__" && objectMethods.contains key'
          | _ => false) ∧
      (getArgumentAtPath value path).mirrorText? = none := by
  cases path with
  | nil =>
    by_cases hproto : key = "__proto__"
    · simp [hproto, getArgumentAtPath, JsValue.isMissing, JsValue.mirrorText?]
    · by_cases hmethod : key ∈ objectMethods <;>
        simp [hproto, hmethod, getArgumentAtPath, JsValue.isMissing, JsValue.mirrorText?]
  | cons key' path =>
    by_cases hproto : key = "__proto__"
    · -- a property of `Object.prototype`, whose own prototype is `null`
      have hstep : getArgumentAtPath .objectPrototype (key' :: path) =
          getArgumentAtPath (JsValue.objectPrototype.get key') path := rfl
      have hobj : (JsValue.objectPrototype.get key').isJsonObject = false := by
        simp only [JsValue.get]
        split
        · rfl
        · split <;> rfl
      simp only [hproto, if_true, hstep]
      cases path with
      | nil =>
        by_cases hproto' : key' = "__proto__"
        · simp [hproto', getArgumentAtPath, JsValue.get, JsValue.isMissing, JsValue.mirrorText?,
            objectMethods]
        · by_cases hmethod : key' ∈ objectMethods <;>
            simp [hproto', hmethod, getArgumentAtPath, JsValue.get, JsValue.isMissing,
              JsValue.mirrorText?]
      | cons key'' path =>
        rw [getArgumentAtPath_of_not_object hobj (List.cons_ne_nil _ _)]
        exact ⟨rfl, rfl⟩
    · have hobj : (if objectMethods.contains key then JsValue.method
          else JsValue.undefined).isJsonObject = false := by split <;> rfl
      simp only [hproto, if_false]
      rw [getArgumentAtPath_of_not_object hobj (List.cons_ne_nil _ _)]
      cases path <;> exact ⟨rfl, rfl⟩

/-- What a path without a value reads: nothing, unless it is inherited. -/
theorem getArgumentAtPath_of_missing (h : valueAt path args = none) :
    (getArgumentAtPath (.json args) path).isMissing = !inheritedAt path args ∧
      (getArgumentAtPath (.json args) path).mirrorText? = none := by
  induction path generalizing args with
  | nil => cases h
  | cons key path ih =>
    cases args with
    | obj members =>
      cases hnext : members.lookup key with
      | some next =>
        have hget : (JsValue.json (.obj members)).get key = .json next := by
          simp [JsValue.get, hnext]
        simp only [valueAt, hnext, Option.bind_some] at h
        simp only [inheritedAt, hnext]
        rw [getArgumentAtPath, hget]
        exact ih h
      | none =>
        have hget : (JsValue.json (.obj members)).get key =
            if key = "__proto__" then .objectPrototype
            else if objectMethods.contains key then .method
            else .undefined := by
          simp [JsValue.get, hnext]
        simp only [inheritedAt, hnext]
        show (getArgumentAtPath ((JsValue.json (.obj members)).get key) path).isMissing = _ ∧
          (getArgumentAtPath ((JsValue.json (.obj members)).get key) path).mirrorText? = none
        rw [hget]
        exact getArgumentAtPath_inherited key path
    | null | bool _ | num _ | str _ | arr _ => exact ⟨rfl, rfl⟩

/-! ## The headers -/

/-- The header of an annotation, if its argument has a value that is mirrored. -/
def headerOf (args : Json) (ann : HeaderAnnotation) : Option (String × String) :=
  (getArgumentAtPath (.json args) ann.path).mirrorText?.map fun text =>
    (ann.headerName, encodeHeaderValue text)

theorem toLower_toLower (c : Char) : c.toLower.toLower = c.toLower := by
  have houtside : ∀ d : Char, ¬('A'.val ≤ d.val ∧ d.val ≤ 'Z'.val) → d.toLower = d :=
    fun d hd => dif_neg hd
  by_cases h : 'A'.val ≤ c.val ∧ c.val ≤ 'Z'.val
  · apply houtside
    have hval : c.toLower.val = c.val + 32 := congrArg Char.val (dif_pos h)
    rw [hval]
    simp only [UInt32.le_iff_toNat_le, UInt32.toNat_add] at h ⊢
    have : 'A'.val.toNat = 65 := rfl
    have : 'Z'.val.toNat = 90 := rfl
    have : (32 : UInt32).toNat = 32 := rfl
    omega
  · rw [houtside c h, houtside c h]

theorem lowerCase_lowerCase (s : String) : lowerCase (lowerCase s) = lowerCase s := by
  rw [lowerCase, lowerCase, String.toList_ofList, List.map_map]
  congr 2
  funext c
  exact toLower_toLower c

/-- The headers of the client are those of the annotations, one by one. -/
theorem toolHeaderValues_eq (schema args : Json) {annotations : List HeaderAnnotation}
    (h : schemaAnnotations schema = some annotations) :
    toolHeaderValues (some schema) args = Dict.ofList (annotations.filterMap (headerOf args)) := by
  rw [toolHeaderValues, Dict.ofList, Dict.setAll, List.foldl_filterMap]
  simp only [Option.bind_some, h, Option.getD_some, foldl_readSegment, headerOf]
  congr 1
  funext headers ann
  cases (getArgumentAtPath (.json args) ann.path).mirrorText? <;> rfl

theorem keys_filterMap_headerOf (args : Json) (annotations : List HeaderAnnotation)
    (f : String → String) :
    (((annotations.filterMap (headerOf args)).map fun h => f h.1)).Sublist
      (annotations.map fun ann => f ann.headerName) := by
  induction annotations with
  | nil => exact List.Sublist.slnil
  | cons ann annotations ih =>
    rw [List.filterMap_cons, List.map_cons]
    cases hheader : headerOf args ann with
    | none => exact ih.cons _
    | some header =>
      obtain ⟨text, -, rfl⟩ := Option.map_eq_some_iff.mp hheader
      exact ih.cons_cons _

variable {ann : HeaderAnnotation}

/-- The server finds the header of every annotation under its name. -/
theorem getHeader_toolHeaderValues {schema : Json} {annotations : List HeaderAnnotation}
    (h : schemaAnnotations schema = some annotations) (hmem : ann ∈ annotations) :
    getHeader (receivedHeaders (toolHeaderValues (some schema) args)) (lowerCase ann.headerName) =
      (getArgumentAtPath (.json args) ann.path).mirrorText?.map encodeHeaderValue := by
  have hnodup := nodup_schemaAnnotations h
  have hlower := (keys_filterMap_headerOf args annotations lowerCase).nodup hnodup
  have hsent : ((annotations.filterMap (headerOf args)).map Prod.fst).Nodup := by
    apply List.Nodup.of_map lowerCase
    rw [List.map_map]
    exact hlower
  have hentries : (toolHeaderValues (some schema) args).entries =
      annotations.filterMap (headerOf args) := by
    rw [toolHeaderValues_eq schema args h]
    exact Dict.entries_setAll Dict.empty _ hsent
  rw [getHeader, lowerCase_lowerCase, receivedHeaders, hentries]
  cases htext : (getArgumentAtPath (.json args) ann.path).mirrorText? with
  | some text =>
    apply Dict.get?_ofList
    · rw [List.map_map]
      exact hlower
    · apply List.mem_map.mpr
      exact ⟨(ann.headerName, encodeHeaderValue text),
        List.mem_filterMap.mpr ⟨ann, hmem, by rw [headerOf, htext]; rfl⟩, rfl⟩
  | none =>
    -- no other annotation has this name
    apply Dict.get?_setAll_of_notMem
    intro value hvalue
    obtain ⟨header, hheader, heq⟩ := List.mem_map.mp hvalue
    obtain ⟨other, hother, hof⟩ := List.mem_filterMap.mp hheader
    obtain ⟨text, hothertext, rfl⟩ := Option.map_eq_some_iff.mp hof
    have hsame : other = ann :=
      List.inj_on_of_nodup_map hnodup hother hmem (Prod.mk.inj heq).1
    rw [hsame, htext] at hothertext
    cases hothertext

/-! ## Acceptance -/

/-- Whether a value at an annotated path is absent, null, a string, a boolean or an integer. -/
def isMirrorable : Option Json → Bool
  | none | some .null | some (.str _) | some (.bool _) => true
  | some (.num n) => 0 ≤ n.exponent
  | some (.arr _) | some (.obj _) => false

/-- A header with the text of its argument is accepted unless the text is empty. -/
theorem validateAnnotation_text {headers : Dict String} (text : String)
    (hpresent : (getArgumentAtPath (.json args) ann.path).isMissing = false)
    (htext : (getArgumentAtPath (.json args) ann.path).mirrorText? = some text)
    (hheader : getHeader headers (lowerCase ann.headerName) = some (encodeHeaderValue text)) :
    validateAnnotation headers args ann = .ok () ↔ text ≠ "" := by
  have hdecode := decodeHeaderMirrorValue_encodeHeaderValue text
  simp only [ validateAnnotation, hpresent, htext, hheader, Bool.false_eq_true, if_false]
  rw [← hdecode]
  cases hres : decodeHeaderMirrorValue (encodeHeaderValue text) with
  | error e => simp [bind, Except.bind]
  | ok decoded =>
    by_cases heq : decoded = text
    · simp [heq, bind, Except.bind]
    · simp [heq, bind, Except.bind]

theorem validateAnnotation_iff {headers : Dict String}
    (hheader : getHeader headers (lowerCase ann.headerName) =
      (getArgumentAtPath (.json args) ann.path).mirrorText?.map encodeHeaderValue)
    (hvalue : isMirrorable (valueAt ann.path args) = true) :
    validateAnnotation headers args ann = .ok () ↔ valueAt ann.path args ≠ some (.str "") ∧
        inheritedAt ann.path args = false := by
  cases hv : valueAt ann.path args with
  | none =>
    obtain ⟨hmissing, htext⟩ := getArgumentAtPath_of_missing hv
    rw [htext] at hheader
    cases hinherited : inheritedAt ann.path args with
    | true => simp [ validateAnnotation, hmissing, hinherited, htext]
    | false => simp [ validateAnnotation, hmissing, hinherited, hheader]
  | some v =>
    have hinherited := inheritedAt_of_valueAt hv
    have hread := getArgumentAtPath_of_valueAt hv
    rw [hv] at hvalue
    cases v with
    | null =>
      rw [hread] at hheader
      simp [ validateAnnotation, hread, JsValue.isMissing, hheader, JsValue.mirrorText?, hinherited]
    | str s =>
      rw [validateAnnotation_text s (by rw [hread]; rfl) (by rw [hread]; rfl)
        (by rw [hheader, hread]; rfl)]
      simp [hinherited]
    | bool b =>
      rw [validateAnnotation_text (if b then "true" else "false") (by rw [hread]; rfl)
        (by rw [hread]; rfl) (by rw [hheader, hread]; rfl)]
      cases b <;> simp [hinherited]
    | num n =>
      have hint : 0 ≤ n.exponent := by simpa [isMirrorable] using hvalue
      have htext : (JsValue.json (.num n)).mirrorText? = some (String.ofList n.toChars) := if_pos hint
      rw [validateAnnotation_text (String.ofList n.toChars) (by rw [hread]; rfl)
        (by rw [hread, htext]) (by rw [hheader, hread, htext]; rfl)]
      obtain ⟨c, cs, hchars, -⟩ := n.toChars_cons
      simp [hinherited, hchars]
    | arr _ | obj _ => cases hvalue

theorem validateAnnotations_iff (headers : Dict String) (args : Json)
    (annotations : List HeaderAnnotation) :
    validateAnnotations headers args annotations = .ok () ↔
      ∀ ann ∈ annotations, validateAnnotation headers args ann = .ok () := by
  induction annotations with
  | nil => simp [validateAnnotations]
  | cons ann annotations ih =>
    rw [validateAnnotations, List.forall_mem_cons, ← ih]
    cases validateAnnotation headers args ann with
    | error _ | ok _ => simp [bind, Except.bind]

/-- A header value is decoded to what it was if and only if it is not empty. And for every input
    schema with valid annotations and all arguments with values that are mirrored, the server
    accepts the headers of the client if and only if no annotated argument is the empty string, and
    none is missing under the name of something that objects inherit. -/
theorem mirrored_headers_round_trip (value toolName : String) {schema args : Json}
    {annotations : List HeaderAnnotation} (hvalid : schemaAnnotations schema = some annotations)
    (hvalues : ∀ ann ∈ annotations, isMirrorable (valueAt ann.path args) = true) :
    (decodeHeaderMirrorValue (encodeHeaderValue value) = .ok value ↔ value ≠ "") ∧
    (validateToolHeaderAnnotations (receivedHeaders (toolHeaderValues (some schema) args))
        ⟨toolName, schema⟩ args = .ok () ↔
      ∀ ann ∈ annotations, valueAt ann.path args ≠ some (.str "") ∧
        inheritedAt ann.path args = false) := by
  constructor
  · exact decodeHeaderMirrorValue_encodeHeaderValue value
  · have hserver : toolAnnotations toolName schema = .ok annotations := by
      have hboth := toolAnnotations_toOption toolName schema
      rw [hvalid] at hboth
      cases hres : toolAnnotations toolName schema with
      | error e => rw [hres] at hboth; cases hboth
      | ok found => rw [hres] at hboth; rw [Option.some.inj hboth]
    have hloop : validateToolHeaderAnnotations
        (receivedHeaders (toolHeaderValues (some schema) args)) ⟨toolName, schema⟩ args =
        validateAnnotations (receivedHeaders (toolHeaderValues (some schema) args)) args
          annotations := by
      cases schema with
      | obj members => simp [validateToolHeaderAnnotations, isJsonObject, hserver, bind, Except.bind]
      | null | bool _ | num _ | str _ | arr _ =>
        -- no object, no annotations
        cases hvalid
        rfl
    rw [hloop, validateAnnotations_iff]
    apply forall₂_congr
    intro ann hmem
    exact validateAnnotation_iff (getHeader_toolHeaderValues hvalid hmem) (hvalues ann hmem)

theorem mirrored_headers_round_trip_region :
    let schema := Json.obj [("properties", .obj [("region",
      .obj [("type", .str "string"), ("x-mcp-header", .str "Region")])])]
    let args := Json.obj [("region", .str "zürich")]
    (decodeHeaderMirrorValue (encodeHeaderValue " é") = .ok " é" ↔ " é" ≠ "") ∧
    (validateToolHeaderAnnotations (receivedHeaders (toolHeaderValues (some schema) args))
        ⟨"deploy", schema⟩ args = .ok () ↔
      ∀ ann ∈ ([⟨"Mcp-Param-Region", ["region"]⟩] : List HeaderAnnotation),
        valueAt ann.path args ≠ some (.str "") ∧
          inheritedAt ann.path args = false) :=
  mirrored_headers_round_trip " é" "deploy" (by decide) (by simp [valueAt, isMirrorable])

/-- The empty text, an argument with it, and a property named like a method that objects inherit. -/
theorem empty_and_inherited_refused :
    let annotated := fun name => Json.obj [("properties", .obj [(name,
      .obj [("type", .str "string"), ("x-mcp-header", .str "Zone")])])]
    let empty := Json.obj [("zone", .str "")]
    let missing := Json.obj []
    decodeHeaderMirrorValue (encodeHeaderValue "") ≠ .ok "" ∧
    (schemaAnnotations (annotated "zone") = some [⟨"Mcp-Param-Zone", ["zone"]⟩] ∧
      isMirrorable (valueAt ["zone"] empty) = true ∧
      validateToolHeaderAnnotations
        (receivedHeaders (toolHeaderValues (some (annotated "zone")) empty))
        ⟨"deploy", annotated "zone"⟩ empty ≠ .ok ()) ∧
    schemaAnnotations (annotated "constructor") = some [⟨"Mcp-Param-Zone", ["constructor"]⟩] ∧
      isMirrorable (valueAt ["constructor"] missing) = true ∧
      validateToolHeaderAnnotations
        (receivedHeaders (toolHeaderValues (some (annotated "constructor")) missing))
        ⟨"deploy", annotated "constructor"⟩ missing ≠ .ok () := by
  decide

end PetaCore
